import HiveSdk.Nodes.Session
import HiveSdk.Uri.Authority

/-!
# The URLs of a node

Four functions print the address and the port of a node into a URL, all of them as `http://%s:%u`. Read back as a URI, an IPv4 address gives the node that was meant. An IPv6 address contains colons and is printed without the square brackets that it needs, so the host that is read is never the address.
-/

namespace HiveSdk

open Interaction

/-- What `inet_pton` is documented to take: digits and dots for an IPv4 address; hexadecimal digits, colons and dots, and at least one colon, for an IPv6 address. -/
structure InetPton.Documented (inetPton : InetPton) : Prop where
  inet : ∀ text, inetPton .inet text → ∀ c ∈ text, Uri.isDigit c ∨ c = 46
  inet6 : ∀ text, inetPton .inet6 text → Uri.colon ∈ text ∧
    ∀ c ∈ text, Uri.isDigit c ∨ 97 ≤ tolower c ∧ tolower c ≤ 102 ∨ c = Uri.colon ∨ c = 46

/-! ### The port -/

private theorem digit_byte {c : Char} (h : c.isDigit) : (UInt8.ofNat c.toNat).toNat = c.toNat
    ∧ Uri.isDigit (UInt8.ofNat c.toNat) := by
  obtain ⟨hlow, hhigh⟩ : 48 ≤ c.toNat ∧ c.toNat ≤ 57 := Char.isDigit_iff_toNat.1 h
  have hsame : (UInt8.ofNat c.toNat).toNat = c.toNat := UInt8.toNat_ofNat_of_lt' (by show c.toNat < 256; omega)
  refine ⟨hsame, ?_⟩
  rw [Uri.isDigit, decide_eq_true_eq, UInt8.le_iff_toNat_le, UInt8.le_iff_toNat_le, hsame]
  exact ⟨hlow, hhigh⟩

theorem decimal_ne_nil (n : Nat) : decimal n ≠ [] := by
  rw [decimal, ne_eq, List.map_eq_nil_iff]
  exact Nat.toDigits_ne_nil

theorem decimal_isDigit (n : Nat) : (decimal n).all Uri.isDigit := by
  rw [decimal, List.all_map, List.all_eq_true]
  intro c hc
  exact (digit_byte (Nat.isDigit_of_mem_toDigits (by decide) (by decide) hc)).2

private theorem foldl_digits {chars : List Char} (h : ∀ c ∈ chars, c.isDigit) (n : Nat) :
    (chars.map fun c => UInt8.ofNat c.toNat).foldl (fun n c => 10 * n + (c.toNat - 48)) n
      = Nat.ofDigitChars 10 chars n := by
  induction chars generalizing n with
  | nil => rfl
  | cons c chars ih =>
      rw [List.map_cons, List.foldl_cons, (digit_byte (h c List.mem_cons_self)).1,
        ih fun d hd => h d (List.mem_cons_of_mem c hd)]
      rfl

/-- A number is read back from what `%u` prints. -/
theorem number_decimal (n : Nat) : Uri.number (decimal n) = n := by
  have hdigits : ∀ c ∈ Nat.toDigits 10 n, c.isDigit := fun c hc =>
    Nat.isDigit_of_mem_toDigits (by decide) (by decide) hc
  rw [Uri.number, decimal, foldl_digits hdigits, Nat.ofDigitChars_ten_toDigits]

/-! ### The host -/

/-- The text of an address, as far as the parser is concerned: none of the bytes that delimit an authority but the colon. -/
def PlainHost (ip : Bytes) : Prop :=
  ∀ c ∈ ip, Uri.endsAuthority c = false ∧ c ≠ Uri.atSign ∧ c ≠ Uri.openBracket

/-- The authority of a node's URL is the host, a colon and the port. -/
private theorem node_authorityText {ip path : Bytes} {port : Nat} (hip : PlainHost ip)
    (hpath : path.head? = some Uri.slash) :
    Uri.authorityText (Url.node ip port path).text = some (ip ++ Uri.colon :: decimal port) := by
  have htext : (Url.node ip port path).text = bytes "http" ++
      Uri.colon :: Uri.slash :: Uri.slash :: ((ip ++ Uri.colon :: decimal port) ++ path) := by
    simp only [Url.text, List.append_assoc, List.cons_append]
    rfl
  rw [htext]
  refine Uri.authorityText_of_parts (by decide) ?_ hpath
  intro c hc
  rcases List.mem_append.1 hc with hc | hc
  · exact (hip c hc).1
  rcases List.mem_cons.1 hc with rfl | hc
  · decide
  · have hdigit := List.all_eq_true.1 (decimal_isDigit port) c hc
    exact Uri.endsAuthority_of_isDigit hdigit

private theorem node_parseAuthority {ip path : Bytes} {port : Nat} (hip : PlainHost ip)
    (hpath : path.head? = some Uri.slash) :
    Uri.parseAuthority (Url.node ip port path).text = Uri.parseHostPort (ip ++ Uri.colon :: decimal port) := by
  have huser : Uri.atSign ∉ ip ++ Uri.colon :: decimal port := by
    intro hmem
    rcases List.mem_append.1 hmem with hc | hc
    · exact (hip _ hc).2.1 rfl
    rcases List.mem_cons.1 hc with hc | hc
    · exact absurd hc (by decide)
    · exact absurd (List.all_eq_true.1 (decimal_isDigit port) _ hc) (by decide)
  rw [Uri.parseAuthority, node_authorityText hip hpath, Option.bind_some, Uri.dropUser_of_notMem huser]

/-- Printed and read back, an address is itself when it has no colons, and something else when it has. -/
theorem node_designates_iff {ip path : Bytes} {port : Nat} (hip : PlainHost ip)
    (hpath : path.head? = some Uri.slash) :
    Uri.parseAuthority (Url.node ip port path).text = some ⟨ip, some port⟩ ↔ Uri.colon ∉ ip := by
  rw [node_parseAuthority hip hpath]
  have hbracket : Uri.openBracket ∉ ip := fun hmem => (hip _ hmem).2.2 rfl
  constructor
  · intro hparse
    have hhead : (ip ++ Uri.colon :: decimal port).head? ≠ some Uri.openBracket := by
      cases ip with
      | nil => exact fun h => absurd (Option.some.inj h) (by decide)
      | cons c ip => exact fun h => hbracket (Option.some.inj h ▸ List.mem_cons_self)
    exact Uri.colon_notMem_host hhead hparse
  · intro hcolon
    rw [Uri.parseHostPort_of_named hcolon hbracket (decimal_isDigit port) (decimal_ne_nil port), number_decimal]

/-! ### The addresses of the options -/

def IpfsNode.address (node : IpfsNode) : AddressFamily → Option Bytes
  | .inet => node.ipv4
  | .inet6 => node.ipv6

section
variable {inetPton : InetPton} {family : AddressFamily} {ip : Bytes}

set_option maxRecDepth 10000 in
theorem InetPton.Documented.plainHost (hpton : inetPton.Documented) (h : inetPton family ip) : PlainHost ip := by
  have hplain : ∀ c ∈ [Uri.slash, Uri.question, Uri.hash, Uri.atSign, Uri.openBracket],
      ¬ (Uri.isDigit c ∨ 97 ≤ tolower c ∧ tolower c ≤ 102 ∨ c = Uri.colon ∨ c = 46) := by decide
  intro c hc
  have htaken : Uri.isDigit c ∨ 97 ≤ tolower c ∧ tolower c ≤ 102 ∨ c = Uri.colon ∨ c = 46 := by
    cases family with
    | inet =>
        rcases hpton.inet ip h c hc with hdigit | hdot
        · exact .inl hdigit
        · exact .inr (.inr (.inr hdot))
    | inet6 => exact (hpton.inet6 ip h).2 c hc
  refine ⟨?_, fun heq => hplain c (by simp [heq]) htaken, fun heq => hplain c (by simp [heq]) htaken⟩
  rw [Uri.endsAuthority, decide_eq_false_iff_not]
  intro hends
  exact hplain c (by rcases hends with rfl | rfl | rfl <;> simp) htaken

theorem InetPton.Documented.colon_notMem_iff (hpton : inetPton.Documented) (h : inetPton family ip) :
    Uri.colon ∉ ip ↔ family = .inet := by
  cases family with
  | inet =>
      refine iff_of_true (fun hmem => ?_) rfl
      exact absurd (hpton.inet ip h _ hmem) (by decide)
  | inet6 => exact iff_of_false (fun hnot => hnot (hpton.inet6 ip h).1) nofun

end

namespace Ipfs

section
variable {inetPton : InetPton} {node : IpfsNode} {accepted : RpcNode}

private theorem unless_iff {c : Prop} [Decidable c] {m : Option RpcNode} {node : RpcNode} :
    (if c then ((none : Option PUnit) >>= fun _ => m) else m) = some node ↔ ¬ c ∧ m = some node := by
  by_cases hc : c
  · simp [hc]
  · simp [hc]

/-- What the checks of the options let through. -/
theorem checkNode_spec (h : checkNode inetPton node = some accepted) :
    accepted.ipv4 = node.ipv4.getD [] ∧ accepted.ipv6 = node.ipv6.getD []
      ∧ (accepted.ipv4 ≠ [] → inetPton .inet accepted.ipv4)
      ∧ (accepted.ipv6 ≠ [] → inetPton .inet6 accepted.ipv6) := by
  have haddress : ∀ {family size ip}, checkAddress inetPton family size ip = true → ip ≠ [] →
      inetPton family ip := by
    intro family size ip hcheck hne
    rw [checkAddress, decide_eq_true_eq] at hcheck
    exact (hcheck.resolve_left hne).2
  rw [checkNode] at h
  obtain ⟨-, h⟩ := unless_iff.1 h
  obtain ⟨hipv4, h⟩ := unless_iff.1 h
  obtain ⟨hipv6, h⟩ := unless_iff.1 h
  obtain ⟨text, -, h⟩ := Option.bind_eq_some_iff.1 h
  obtain ⟨-, h⟩ := unless_iff.1 h
  obtain ⟨-, h⟩ := unless_iff.1 h
  obtain rfl := Option.some.inj h
  exact ⟨rfl, rfl, haddress (by simpa using hipv4), haddress (by simpa using hipv6)⟩

/-- Every accepted node comes from one of the options. -/
theorem mem_of_accepted {given : List IpfsNode} {nodes : List RpcNode}
    (h : given.mapM (checkNode inetPton) = some nodes) (hmem : accepted ∈ nodes) :
    ∃ node ∈ given, checkNode inetPton node = some accepted := by
  induction given generalizing nodes with
  | nil =>
      obtain rfl : nodes = [] := (Option.some.inj h).symm
      cases hmem
  | cons first given ih =>
      rw [List.mapM_cons] at h
      obtain ⟨checked, hchecked, h⟩ := Option.bind_eq_some_iff.1 h
      obtain ⟨rest, hrest, h⟩ := Option.bind_eq_some_iff.1 h
      obtain rfl := Option.some.inj h
      rcases List.mem_cons.1 hmem with rfl | hmem
      · exact ⟨first, List.mem_cons_self, hchecked⟩
      · obtain ⟨node, hnode, hcheck⟩ := ih hrest hmem
        exact ⟨node, List.mem_cons_of_mem first hnode, hcheck⟩

end

/-! ### The requests of a session -/

/-- A request to a configured address, at one of the paths that the source prints. -/
def Addressed (nodes : List RpcNode) : Event → Prop
  | .perform req => ∃ ip port path, req.url = .node ip port path ∧ ip ≠ [] ∧ Configured nodes ip port
    ∧ path ∈ versionPath :: apiPaths
  | _ => True

section
variable {nodes : List RpcNode}

private theorem addressed_of_quiet {e : Event} (h : IsQuiet e) : Addressed nodes e := by
  cases e <;> trivial

theorem probes_addressed : Probes (World.guard (Addressed nodes)) nodes () fun _ _ => () where
  free _ he := addressed_of_quiet he
  quiet _ _ _ _ _ := rfl
  request ip port hne hconfigured := ⟨ip, port, versionPath, rfl, hne, hconfigured, List.mem_cons_self⟩
  answer _ _ _ _ _ := (ite_self ()).symm

/-- Only configured addresses are ever selected. -/
structure SelectsConfigured (nodes : List RpcNode) (conn : IpfsConnect) : Prop where
  table : conn.rpcNodes = nodes
  selected : conn.currentNodeIp ≠ [] → Configured nodes conn.currentNodeIp conn.currentNodePort

theorem keeps_addressed :
    Keeps (World.guard (Addressed nodes)) (fun conn _ => SelectsConfigured nodes conn) where
  free _ _ he := addressed_of_quiet he
  quiet _ _ _ _ _ _ := rfl
  search := by
    intro p s Q hs hok hfail
    simp only [checkReachable, Proc.wp_bind, wp_getConn, Proc.wp_ite, Proc.wp_pure]
    refine ⟨fun hne => hok p s hne hs, fun _ => ?_⟩
    rw [hs.table]
    apply probes_addressed.selectBootstrap
    · intro ip port hne hconfigured
      dsimp only
      rw [Proc.wp_bind, wp_setConn, Proc.wp_pure]
      exact hok _ _ hne ⟨rfl, fun _ => hconfigured⟩
    · exact hfail
  request := by
    intro conn s req path hs hne hurl hpath
    exact ⟨⟨_, _, path, hurl, hne, hs.selected hne, List.mem_cons_of_mem _ hpath⟩, fun _ _ _ => rfl⟩
  lost _ _ hs := ⟨hs.table, fun hne => absurd rfl hne⟩

end

end Ipfs

open Ipfs

/-- The requests that are sent while a connect is made with the options, and by the operations on it. -/
inductive NodeRequest (inetPton : InetPton) (opts : IpfsConnectOptions) : Request → Prop
  | connecting {p : Process Unit} {tr : Trace} {req : Request} {k}
      (h : Steps (ipfsClientConnect inetPton opts p) tr (.ask (.perform req) k)) :
      NodeRequest inetPton opts req
  | calling {p : Process IpfsConnect} {tr tr' : Trace} {req : Request} {k} (op : IpfsOp)
      (hsession : IpfsSession inetPton opts p tr) (h : Steps (op.call p) tr' (.ask (.perform req) k)) :
      NodeRequest inetPton opts req

section
variable {inetPton : InetPton} {opts : IpfsConnectOptions} {req : Request}

theorem IpfsSession.selectsConfigured {p : Process IpfsConnect} {tr : Trace}
    (h : IpfsSession inetPton opts p tr) :
    ∃ nodes, opts.rpcNodes.mapM (checkNode inetPton) = some nodes ∧ SelectsConfigured nodes p.conn := by
  obtain ⟨nodes, hnodes, hs⟩ := h.selects
  exact ⟨nodes, hnodes, hs.table, fun hne => (hs.selected hne).1⟩

theorem NodeRequest.addressed (h : NodeRequest inetPton opts req) :
    ∃ nodes, opts.rpcNodes.mapM (checkNode inetPton) = some nodes ∧ Addressed nodes (.perform req) := by
  cases h with
  | @connecting p tr req k h =>
      cases hnodes : opts.rpcNodes.mapM (checkNode inetPton) with
      | none =>
          have hnever : Proc.wp (World.guard fun _ => False) (ipfsClientConnect inetPton opts)
              (fun _ _ _ => True) p () := by
            rw [ipfsClientConnect, Proc.wp_ite, Proc.wp_pure, hnodes]
            exact ⟨fun _ => trivial, fun _ => trivial⟩
          exact (Prog.wp_steps hnever h (World.guard_accepts _ tr)).elim
      | some nodes =>
          refine ⟨nodes, rfl, ?_⟩
          have hprobes : ∀ nodes', opts.rpcNodes.mapM (checkNode inetPton) = some nodes' →
              Probes (World.guard (Addressed nodes)) nodes' () fun _ _ => () := by
            intro nodes' hnodes'
            obtain rfl := Option.some.inj (hnodes.symm.trans hnodes')
            exact probes_addressed
          exact Prog.wp_steps (Probes.connect hprobes) h (World.guard_accepts _ tr)
  | @calling p tr tr' req k op hsession h =>
      obtain ⟨nodes, hnodes, hs⟩ := hsession.selectsConfigured
      exact ⟨nodes, hnodes, Prog.wp_steps (keeps_addressed.call op hs) h (World.guard_accepts _ tr')⟩

/-- A request is always for an address and the port of one node of the options. Its URL designates that node exactly if the address is an IPv4 address. -/
theorem node_urls_designate_iff (hpton : inetPton.Documented) (h : NodeRequest inetPton opts req) :
    ∃ node ∈ opts.rpcNodes, ∃ accepted, checkNode inetPton node = some accepted ∧
      ∃ family ip path, node.address family = some ip ∧ ip ≠ [] ∧ path ∈ versionPath :: apiPaths ∧
        req.url = .node ip accepted.port path ∧
        (Uri.parseAuthority req.url.text = some ⟨ip, some accepted.port⟩ ↔ family = .inet) := by
  obtain ⟨nodes, hnodes, ip, port, path, hurl, hne, ⟨accepted, hmem, hip, rfl⟩, hpath⟩ := h.addressed
  obtain ⟨node, hnode, hcheck⟩ := mem_of_accepted hnodes hmem
  obtain ⟨hipv4, hipv6, hvalid4, hvalid6⟩ := checkNode_spec hcheck
  have hslash : path.head? = some Uri.slash := by
    have hall : ∀ path ∈ versionPath :: apiPaths, path.head? = some Uri.slash := by decide
    exact hall path hpath
  have hsome : ∀ {given : Option Bytes}, ip = given.getD [] → given = some ip := by
    intro given hgiven
    cases given with
    | none => exact absurd hgiven hne
    | some text => rw [hgiven, Option.getD_some]
  obtain ⟨family, haddress, hvalid⟩ : ∃ family, node.address family = some ip ∧ inetPton family ip := by
    rcases hip with rfl | rfl
    · exact ⟨.inet, hsome hipv4, hvalid4 hne⟩
    · exact ⟨.inet6, hsome hipv6, hvalid6 hne⟩
  refine ⟨node, hnode, accepted, hcheck, family, ip, path, haddress, hne, hpath, hurl, ?_⟩
  rw [hurl, node_designates_iff (hpton.plainHost hvalid) hslash]
  exact hpton.colon_notMem_iff hvalid

end

/-! A node with an address of either family, on the port of the API. -/

def dualPton : InetPton
  | .inet, text => text = bytes "127.0.0.1"
  | .inet6, text => text = bytes "::1"

set_option maxRecDepth 10000 in
theorem dualPton_documented : dualPton.Documented where
  inet text h := by
    obtain rfl : text = bytes "127.0.0.1" := of_decide_eq_true h
    decide
  inet6 text h := by
    obtain rfl : text = bytes "::1" := of_decide_eq_true h
    decide

def dualNode : IpfsNode := ⟨some (bytes "127.0.0.1"), some (bytes "::1"), some (bytes "5001")⟩

def dualOptions : IpfsConnectOptions := ⟨.ipfs, [dualNode]⟩

def probeOf (ip : Bytes) : Request where
  method := .post
  url := .node ip 5001 versionPath

private theorem dual_ipv4 : NodeRequest dualPton dualOptions (probeOf (bytes "127.0.0.1")) := by
  have hsteps : ∃ k, Steps (ipfsClientConnect dualPton dualOptions (⟨0, 0, ()⟩ : Process Unit))
      [⟨.alloc 128, true⟩, ⟨.alloc 130, true⟩, ⟨.rand, (7 : Nat)⟩, ⟨.httpClientNew .testReachable, true⟩]
      (.ask (.perform (probeOf (bytes "127.0.0.1"))) k) := by
    apply Exists.intro
    iterate 4 refine .ask _ _ _ ?_
    exact .refl _
  obtain ⟨k, h⟩ := hsteps
  exact .connecting h

theorem node_urls_designate_ipv4 : ∃ node ∈ dualOptions.rpcNodes, ∃ accepted,
    checkNode dualPton node = some accepted ∧ ∃ family ip path, node.address family = some ip ∧ ip ≠ []
      ∧ path ∈ versionPath :: apiPaths ∧ (probeOf (bytes "127.0.0.1")).url = .node ip accepted.port path
      ∧ (Uri.parseAuthority (probeOf (bytes "127.0.0.1")).url.text = some ⟨ip, some accepted.port⟩
        ↔ family = .inet) :=
  node_urls_designate_iff dualPton_documented dual_ipv4

/-- The IPv6 address is probed once the IPv4 address has failed to answer, at `http://::1:5001/version`. -/
theorem ipv6_url_lost : dualPton.Documented ∧ checkNode dualPton dualNode
      = some ⟨bytes "127.0.0.1", bytes "::1", 5001⟩
    ∧ NodeRequest dualPton dualOptions (probeOf (bytes "::1"))
    ∧ Uri.parseAuthority (probeOf (bytes "::1")).url.text ≠ some ⟨bytes "::1", some 5001⟩ := by
  have hsteps : ∃ k, Steps (ipfsClientConnect dualPton dualOptions (⟨0, 0, ()⟩ : Process Unit))
      [⟨.alloc 128, true⟩, ⟨.alloc 130, true⟩, ⟨.rand, (7 : Nat)⟩, ⟨.httpClientNew .testReachable, true⟩,
        ⟨.perform (probeOf (bytes "127.0.0.1")), demoReply 404 []⟩, ⟨.httpClientNew .testReachable, true⟩]
      (.ask (.perform (probeOf (bytes "::1"))) k) := by
    apply Exists.intro
    iterate 6 refine .ask _ _ _ ?_
    exact .refl _
  obtain ⟨k, h⟩ := hsteps
  exact ⟨dualPton_documented, by decide, .connecting h, by decide⟩

end HiveSdk
