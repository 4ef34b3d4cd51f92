import HiveSdk.Interaction.Search
import HiveSdk.Model.Ipfs
import Mathlib.Data.List.Nodup

/-!
# The search for a node

`select_bootstrap` starts at a random node and goes once around the table. It is the search for the first address that answers, through the configured addresses in the order of the circle; the invariant of the loop is how far around the circle it has come.
-/

namespace HiveSdk

open Interaction

namespace Ipfs

inductive Family
  | ipv4 | ipv6
  deriving DecidableEq, Repr

/-- A place of the node table where an address may stand. -/
structure Slot where
  node : Nat
  family : Family
  deriving DecidableEq, Repr

namespace Slot

def address (nodes : List RpcNode) (slot : Slot) : Bytes × Nat :=
  match nodes[slot.node]?, slot.family with
  | some node, .ipv4 => (node.ipv4, node.port)
  | some node, .ipv6 => (node.ipv6, node.port)
  | none, _ => ([], 0)

/-- An address that is left out is empty. -/
def Configured (nodes : List RpcNode) (slot : Slot) : Prop := (slot.address nodes).1 ≠ []

instance (nodes : List RpcNode) (slot : Slot) : Decidable (slot.Configured nodes) :=
  inferInstanceAs (Decidable (_ ≠ _))

theorem Configured.node_lt {nodes : List RpcNode} {slot : Slot} (h : slot.Configured nodes) :
    slot.node < nodes.length := by
  rw [Configured, address] at h
  by_contra hge
  rw [List.getElem?_eq_none (by omega)] at h
  exact h rfl

/-- Whether the address in the slot answers. -/
def answers {σ : Type} (nodes : List RpcNode) (slot : Slot) : Hive σ Bool :=
  tryAddress (slot.address nodes).1 (slot.address nodes).2

end Slot

/-- The addresses of one node, IPv4 before IPv6. -/
def nodeSlots (nodes : List RpcNode) (i : Nat) : List Slot :=
  [⟨i, .ipv4⟩, ⟨i, .ipv6⟩].filter fun slot => slot.Configured nodes

/-- The configured addresses from node `base` on, `steps` nodes around the circle. -/
def circle (nodes : List RpcNode) (base j steps : Nat) : List Slot :=
  (List.range' j steps).flatMap fun j => nodeSlots nodes ((base + j) % nodes.length)

/-- Once around the circle. -/
def searchOrder (nodes : List RpcNode) (base : Nat) : List Slot := circle nodes base 0 nodes.length

/-! ### The order -/

section
variable {nodes : List RpcNode} {base : Nat}

theorem mem_nodeSlots_iff {i : Nat} {slot : Slot} :
    slot ∈ nodeSlots nodes i ↔ slot.node = i ∧ slot.Configured nodes := by
  rw [nodeSlots, List.mem_filter, decide_eq_true_iff]
  apply and_congr_left
  intro _
  obtain ⟨node, family⟩ := slot
  cases family <;> simp

theorem nodup_nodeSlots (i : Nat) : (nodeSlots nodes i).Nodup := by
  apply List.Nodup.filter
  simp

private theorem circle_index_inj {i j : Nat} (hbase : base < nodes.length) (hi : i < nodes.length)
    (hj : j < nodes.length) (h : (base + i) % nodes.length = (base + j) % nodes.length) : i = j := by
  have hmod (k : Nat) (hk : k < nodes.length) : (base + k) % nodes.length
      = if base + k < nodes.length then base + k else base + k - nodes.length := by
    split
    case isTrue hlt => exact Nat.mod_eq_of_lt hlt
    case isFalse hge =>
        rw [Nat.mod_eq_sub_mod (by omega)]
        exact Nat.mod_eq_of_lt (by omega)
  rw [hmod i hi, hmod j hj] at h
  split at h <;> split at h <;> omega

/-- No address is searched twice. -/
theorem nodup_searchOrder (hbase : base < nodes.length) : (searchOrder nodes base).Nodup := by
  rw [searchOrder, circle, List.nodup_flatMap]
  refine ⟨fun j _ => nodup_nodeSlots _, ?_⟩
  have hnodup : (List.range' 0 nodes.length).Nodup := List.nodup_range'
  refine List.Pairwise.imp_of_mem (fun {i j} hi hj hne => ?_) hnodup
  rw [List.mem_range'_1] at hi hj
  intro slot hslot hslot'
  have hnode := (mem_nodeSlots_iff.1 hslot).1.symm.trans (mem_nodeSlots_iff.1 hslot').1
  exact hne (circle_index_inj hbase (by omega) (by omega) hnode)

/-- None is left out. -/
theorem mem_searchOrder_iff (hbase : base < nodes.length) {slot : Slot} :
    slot ∈ searchOrder nodes base ↔ slot.Configured nodes := by
  rw [searchOrder, circle, List.mem_flatMap]
  constructor
  · intro ⟨j, _, hslot⟩
    exact (mem_nodeSlots_iff.1 hslot).2
  · intro hconfigured
    have hlt := hconfigured.node_lt
    -- how far the node lies behind the start
    refine ⟨(slot.node + nodes.length - base) % nodes.length, ?_, mem_nodeSlots_iff.2 ⟨?_, hconfigured⟩⟩
    · rw [List.mem_range'_1]
      exact ⟨Nat.zero_le _, by rw [Nat.zero_add]; exact Nat.mod_lt _ (by omega)⟩
    · rw [Nat.add_mod_mod, show base + (slot.node + nodes.length - base) = slot.node + nodes.length by omega,
        Nat.add_mod_right, Nat.mod_eq_of_lt hlt]

end

/-! ### The loop -/

/-- What the search writes and returns. -/
def found (nodes : List RpcNode) : Option Slot → Int × Option (Bytes × Nat)
  | some slot => (0, some (slot.address nodes))
  | none => (cInt (hiveGeneralError HiveErr.badBootstrapHost), none)

private theorem tryAddress_nil {σ : Type} (port : Nat) :
    (tryAddress [] port : Hive σ Bool) = pure false := if_pos rfl

/-- An empty address can be left out. -/
private theorem findM?_nodeSlots {σ : Type} (nodes : List RpcNode) (i : Nat) :
    (nodeSlots nodes i).findM? (Slot.answers nodes : Slot → Hive σ Bool) = (do
      if ← Slot.answers nodes ⟨i, .ipv4⟩ then return some ⟨i, .ipv4⟩
      if ← Slot.answers nodes ⟨i, .ipv6⟩ then return some ⟨i, .ipv6⟩
      return none) := by
  rw [nodeSlots, findM?_filter]
  · simp only [List.findM?]
    apply bind_congr
    intro accepted
    cases accepted with
    | true => rfl
    | false =>
        apply bind_congr
        intro accepted
        cases accepted <;> rfl
  · intro slot _ hempty
    rw [Slot.answers, not_not.1 (of_decide_eq_false hempty)]
    exact tryAddress_nil _

/-- The invariant of the loop: the nodes before the current one have been searched. -/
private theorem scanNodes_eq {σ : Type} {nodes : List RpcNode} {base steps j : Nat}
    (hbase : base < nodes.length) (hsteps : j + steps = nodes.length) (hpos : 0 < steps) :
    (scanNodes nodes base steps ((base + j) % nodes.length) : Hive σ _)
      = found nodes <$> (circle nodes base j steps).findM? (Slot.answers nodes) := by
  induction steps generalizing j with
  | zero => exact absurd hpos (lt_irrefl 0)
  | succ steps ih =>
      have hlt : (base + j) % nodes.length < nodes.length := Nat.mod_lt _ (by omega)
      obtain ⟨node, hnode⟩ : ∃ node, nodes[(base + j) % nodes.length]? = some node :=
        ⟨_, List.getElem?_eq_getElem hlt⟩
      have hcircle : circle nodes base j (steps + 1)
          = nodeSlots nodes ((base + j) % nodes.length) ++ circle nodes base (j + 1) steps := by
        rw [circle, List.range'_succ, List.flatMap_cons]
        rfl
      have hipv4 : (tryAddress node.ipv4 node.port : Hive σ Bool)
          = Slot.answers nodes ⟨(base + j) % nodes.length, .ipv4⟩ := by
        simp only [Slot.answers, Slot.address, hnode]
      have hipv6 : (tryAddress node.ipv6 node.port : Hive σ Bool)
          = Slot.answers nodes ⟨(base + j) % nodes.length, .ipv6⟩ := by
        simp only [Slot.answers, Slot.address, hnode]
      have hfound4 : found nodes (some ⟨(base + j) % nodes.length, .ipv4⟩) = (0, some (node.ipv4, node.port)) := by
        simp only [found, Slot.address, hnode]
      have hfound6 : found nodes (some ⟨(base + j) % nodes.length, .ipv6⟩) = (0, some (node.ipv6, node.port)) := by
        simp only [found, Slot.address, hnode]
      have hnext : ((base + j) % nodes.length + 1) % nodes.length = (base + (j + 1)) % nodes.length := by
        rw [Nat.mod_add_mod, Nat.add_assoc]
      rw [hcircle, findM?_append, findM?_nodeSlots, scanNodes, hnode]
      dsimp only
      rw [hipv4, hipv6, hnext, ← hfound4, ← hfound6]
      simp only [map_bind, bind_assoc]
      apply bind_congr
      intro accepted
      cases accepted with
      | true => rfl
      | false =>
          simp only [Bool.false_eq_true, if_false, bind_assoc]
          apply bind_congr
          intro accepted
          cases accepted with
          | true => rfl
          | false =>
              simp only [Bool.false_eq_true, if_false, pure_bind]
              by_cases hend : steps = 0
              · have hback : (base + (j + 1)) % nodes.length = base := by
                  rw [show j + 1 = nodes.length by omega, Nat.add_mod_right, Nat.mod_eq_of_lt hbase]
                rw [hback, if_neg (not_not.2 rfl), hend]
                rfl
              · have hgo : (base + (j + 1)) % nodes.length ≠ base := by
                  intro hback
                  have hzero : (base + (j + 1)) % nodes.length = (base + 0) % nodes.length := by
                    rw [hback, Nat.add_zero, Nat.mod_eq_of_lt hbase]
                  have hindex := circle_index_inj hbase (by omega) (by omega) hzero
                  omega
                rw [if_pos hgo, ih (by omega) (by omega)]

theorem selectBootstrap_eq {σ : Type} {nodes : List RpcNode} (hne : nodes ≠ []) :
    (selectBootstrap nodes : Hive σ _) = (do
      let base := (← call Event.rand) % nodes.length
      found nodes <$> (searchOrder nodes base).findM? (Slot.answers nodes)) := by
  have hlength : 0 < nodes.length := List.length_pos_of_ne_nil hne
  rw [selectBootstrap]
  apply bind_congr
  intro n
  have hbase : n % nodes.length < nodes.length := Nat.mod_lt _ hlength
  have hscan := @scanNodes_eq σ _ _ _ _ hbase (Nat.zero_add nodes.length) hlength
  rw [Nat.add_zero, Nat.mod_eq_of_lt hbase] at hscan
  exact hscan

/-! ### What is found -/

/-- A search from the node `base` on, where `result` is what a probe of each address comes to. -/
structure Searched (nodes : List RpcNode) (base : Nat) (result : Slot → Int) (probed : List Slot) (rc : Int)
    (selected : Option (Bytes × Nat)) : Prop where
  complete : ∀ slot, slot ∈ searchOrder nodes base ↔ slot.Configured nodes
  cyclic : probed <+: searchOrder nodes base
  once : probed.Nodup
  stops : ∀ slot ∈ probed.dropLast, result slot ≠ 0
  reached : rc = 0 ↔ ∃ slot, slot.Configured nodes ∧ result slot = 0
  selects : rc = 0 → ∃ slot, probed.getLast? = some slot ∧ result slot = 0
    ∧ selected = some (slot.address nodes)
  fails : rc ≠ 0 → rc < 0 ∧ probed = searchOrder nodes base ∧ selected = none

private theorem searched {nodes : List RpcNode} {base : Nat} (hbase : base < nodes.length) (result : Slot → Int) :
    Searched nodes base result (upTo (fun slot => decide (result slot = 0)) (searchOrder nodes base))
      (found nodes ((searchOrder nodes base).find? fun slot => decide (result slot = 0))).1
      (found nodes ((searchOrder nodes base).find? fun slot => decide (result slot = 0))).2 := by
  have hcomplete : ∀ slot, slot ∈ searchOrder nodes base ↔ slot.Configured nodes :=
    fun slot => mem_searchOrder_iff hbase
  have hbad : cInt (hiveGeneralError HiveErr.badBootstrapHost) < 0 := cInt_hiveMkError_neg .general (by decide)
  have hcyclic := upTo_prefix (fun slot => decide (result slot = 0)) (searchOrder nodes base)
  have hstops : ∀ slot ∈ (upTo (fun slot => decide (result slot = 0)) (searchOrder nodes base)).dropLast,
      result slot ≠ 0 := by
    intro slot hslot
    have hsilent := upTo_dropLast hslot
    exact of_decide_eq_false hsilent
  have honce := (nodup_searchOrder hbase).sublist hcyclic.sublist
  rcases hfind : (searchOrder nodes base).find? fun slot => decide (result slot = 0) with _ | slot
  · have hnone := List.find?_eq_none.1 hfind
    refine ⟨hcomplete, hcyclic, honce, hstops, ?_, fun h => absurd h hbad.ne, fun _ => ⟨hbad, ?_, rfl⟩⟩
    · constructor
      · exact fun h => absurd h hbad.ne
      · intro ⟨slot, hconfigured, hresult⟩
        exact absurd (decide_eq_true hresult) (hnone slot ((hcomplete slot).2 hconfigured))
    · exact upTo_of_none hfind
  · have haccepted := List.find?_some hfind
    have hresult : result slot = 0 := of_decide_eq_true haccepted
    have hconfigured := (hcomplete slot).1 (List.mem_of_find?_eq_some hfind)
    refine ⟨hcomplete, hcyclic, honce, hstops, ?_, fun _ => ⟨slot, upTo_of_find hfind, hresult, rfl⟩, ?_⟩
    · exact iff_of_true rfl ⟨slot, hconfigured, hresult⟩
    · exact fun h => absurd rfl h

/-- Whatever the probes come to, the search ends, and it has probed one address after the other around the circle up to the first that answers. -/
theorem selectBootstrap_searched {σ : Type} {nodes : List RpcNode} (hne : nodes ≠ []) (n : Nat)
    (p : Process σ) (probe : Slot → Trace × Int)
    (hprobe : ∀ slot, slot.Configured nodes →
      Run (testReachable (slot.address nodes).1 (slot.address nodes).2 p) (probe slot).1 ((probe slot).2, p)) :
    ∃ probed rc selected,
      Run (selectBootstrap nodes p) (⟨.rand, n⟩ :: probed.flatMap fun slot => (probe slot).1) ((rc, selected), p)
        ∧ Searched nodes (n % nodes.length) (fun slot => (probe slot).2) probed rc selected := by
  have hbase : n % nodes.length < nodes.length := Nat.mod_lt _ (List.length_pos_of_ne_nil hne)
  refine ⟨_, _, _, ?_, searched hbase fun slot => (probe slot).2⟩
  have hanswers : ∀ slot ∈ searchOrder nodes (n % nodes.length), Run (Slot.answers nodes slot p) (probe slot).1
      (decide ((probe slot).2 = 0), p) := by
    intro slot hslot
    have hconfigured := (mem_searchOrder_iff hbase).1 hslot
    rw [Slot.answers, tryAddress, if_neg hconfigured, ← List.append_nil (probe slot).1]
    exact run_bind (hprobe slot hconfigured) (.refl _)
  have hfind := run_findM? hanswers
  have hfound := run_bind (f := fun x => .ret (found nodes x.1, x.2)) hfind (.refl _)
  rw [List.append_nil] at hfound
  rw [selectBootstrap_eq hne]
  exact .ask _ _ _ hfound

/-- What a probe comes to, when the address can be written into a URL. -/
private theorem testReachable_run {σ : Type} {ip : Bytes} {port : Nat} {p : Process σ} (reply : Reply)
    (hurl : (Url.node ip port (bytes "/version")).text.length < maxPathLen + 1) :
    Run (testReachable ip port p) [⟨.httpClientNew .testReachable, true⟩,
        ⟨.perform { method := .post, url := .node ip port (bytes "/version") }, reply⟩]
      (if reply.code ≠ 0 then cInt (hiveCurlError reply.code)
        else if reply.info ≠ 0 then cInt (hiveCurlError reply.info)
        else if reply.status ≠ HttpStatus.ok then cInt (hiveHttpStatusError reply.status) else 0, p) := by
  rw [testReachable, if_neg (by omega)]
  refine .ask _ _ _ (.ask _ _ _ ?_)
  show Run ((if reply.code ≠ 0 then (pure (cInt (hiveCurlError reply.code)) : Hive σ Int)
    else if reply.info ≠ 0 then pure (cInt (hiveCurlError reply.info))
    else if reply.status ≠ HttpStatus.ok then pure (cInt (hiveHttpStatusError reply.status)) else pure 0) p) [] _
  by_cases hcode : reply.code ≠ 0
  · simp only [if_pos hcode]
    exact .refl _
  by_cases hinfo : reply.info ≠ 0
  · simp only [if_neg hcode, if_pos hinfo]
    exact .refl _
  by_cases hstatus : reply.status ≠ HttpStatus.ok
  · simp only [if_neg hcode, if_neg hinfo, if_pos hstatus]
    exact .refl _
  simp only [if_neg hcode, if_neg hinfo, if_neg hstatus]
  exact .refl _

/-- Two nodes, of which the first has only an IPv4 address. -/
def twoNodes : List RpcNode := [⟨bytes "10.0.0.1", [], 9095⟩, ⟨bytes "10.0.0.2", bytes "::2", 9095⟩]

/-- A probe of an address that answers only over IPv6. -/
def ipv6Probe (slot : Slot) : Trace × Int :=
  let req : Request :=
    { method := .post, url := .node (slot.address twoNodes).1 (slot.address twoNodes).2 (bytes "/version") }
  match slot.family with
  | .ipv4 => ([⟨.httpClientNew .testReachable, true⟩, ⟨.perform req, ⟨[], CurlE.couldntConnect, 0, 0⟩⟩],
      cInt (hiveCurlError CurlE.couldntConnect))
  | .ipv6 => ([⟨.httpClientNew .testReachable, true⟩, ⟨.perform req, ⟨[], 0, 0, HttpStatus.ok⟩⟩], 0)

theorem selectBootstrap_searched_two : twoNodes ≠ [] ∧ ∃ probed rc selected,
    Run (selectBootstrap twoNodes (⟨0, 0, ()⟩ : Process Unit))
        (⟨.rand, (3 : Nat)⟩ :: probed.flatMap fun slot => (ipv6Probe slot).1) ((rc, selected), ⟨0, 0, ()⟩)
      ∧ Searched twoNodes 1 (fun slot => (ipv6Probe slot).2) probed rc selected := by
  have hne : twoNodes ≠ [] := nofun
  refine ⟨hne, selectBootstrap_searched hne 3 _ ipv6Probe fun slot hconfigured => ?_⟩
  have hnode := hconfigured.node_lt
  obtain ⟨node, family⟩ := slot
  have hcases : node = 0 ∨ node = 1 := by
    have hlt : node < 2 := hnode
    omega
  have hrefused (ip : Bytes) (port : Nat)
      (hurl : (Url.node ip port (bytes "/version")).text.length < maxPathLen + 1) :
      Run (testReachable ip port (⟨0, 0, ()⟩ : Process Unit)) [⟨.httpClientNew .testReachable, true⟩,
          ⟨.perform { method := .post, url := .node ip port (bytes "/version") },
            ⟨[], CurlE.couldntConnect, 0, 0⟩⟩]
        (cInt (hiveCurlError CurlE.couldntConnect), ⟨0, 0, ()⟩) := by
    have hrun := testReachable_run (p := (⟨0, 0, ()⟩ : Process Unit)) ⟨[], CurlE.couldntConnect, 0, 0⟩ hurl
    rw [if_pos (by decide)] at hrun
    exact hrun
  rcases hcases with rfl | rfl <;> cases family <;> simp only [ipv6Probe]
  · exact hrefused _ _ (by decide)
  · exact absurd rfl hconfigured
  · exact hrefused _ _ (by decide)
  · exact testReachable_run ⟨[], 0, 0, HttpStatus.ok⟩ (by decide)

end Ipfs

end HiveSdk
