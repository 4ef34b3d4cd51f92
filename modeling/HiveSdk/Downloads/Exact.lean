import HiveSdk.Drive.World
import HiveSdk.Errors.Lengths
import HiveSdk.Records.Filling

/-!
# Downloads from an IPFS node

The write callback of the IPFS backend counts what it has stored and refuses a piece that does not fit, at which curl gives up. The invariant is that the buffer holds the pieces that were taken and is otherwise untouched; with the comparison at the end of the call, a length is returned exactly for a complete download.
-/

namespace HiveSdk

open Interaction Filling

namespace Ipfs

/-- The pieces up to the first for which a buffer of `bufsz` bytes, of which `used` are taken, has no room. -/
def accepted (bufsz used : Nat) : List Bytes → List Bytes
  | [] => []
  | chunk :: chunks =>
      if used + chunk.length ≤ bufsz then chunk :: accepted bufsz (used + chunk.length) chunks
      else []

/-- The buffer and each piece lie in one address space. -/
def Addressable (buflen : Nat) (chunks : List Bytes) : Prop :=
  ∀ chunk ∈ chunks, buflen + chunk.length < 2 ^ 64

/-- The invariant of the callback, over any number of pieces. -/
theorem storeBounded_filled (block xs : Bytes) {bufsz : Nat} {chunks : List Bytes}
    (hxs : xs.length ≤ bufsz) (hchunks : Addressable bufsz chunks) :
    storeBounded bufsz (filled block xs) xs.length chunks
      = (filled block (xs ++ (accepted bufsz xs.length chunks).flatten),
          (xs ++ (accepted bufsz xs.length chunks).flatten).length,
          decide (accepted bufsz xs.length chunks = chunks))
    ∧ (xs ++ (accepted bufsz xs.length chunks).flatten).length ≤ bufsz := by
  induction chunks generalizing xs with
  | nil =>
      rw [accepted, List.flatten_nil, List.append_nil]
      exact ⟨rfl, hxs⟩
  | cons chunk chunks ih =>
      have hsum : cSize ((xs.length : Int) + chunk.length) = xs.length + chunk.length := by
        have hsmall := hchunks chunk List.mem_cons_self
        unfold cSize
        omega
      have hlength : (xs ++ chunk).length = xs.length + chunk.length := List.length_append
      rw [storeBounded, accepted, hsum]
      by_cases hfits : xs.length + chunk.length ≤ bufsz
      · have hrest : Addressable bufsz chunks := fun c hc => hchunks c (List.mem_cons_of_mem _ hc)
        have hnext := ih (xs ++ chunk) (hlength ▸ hfits) hrest
        rw [if_neg (not_lt.2 hfits), if_pos hfits, filled_append, ← hlength, hnext.1,
          List.flatten_cons, ← List.append_assoc]
        refine ⟨?_, hnext.2⟩
        simp only [List.cons.injEq, true_and]
      · have hne : chunk ≠ [] := by
          rintro rfl
          exact hfits hxs
        rw [if_pos (not_le.1 hfits), if_neg hne, if_neg hfits, List.flatten_nil, List.append_nil]
        exact ⟨by simp, hxs⟩

end Ipfs

def lsText : Bytes := bytes "\x7b\"Objects\":\x7b\"a\":\x7b\"Size\":5\x7d\x7d\x7d"

def lsJson : Json :=
  .object [(bytes "Objects", .object [(bytes "a", .object [(bytes "Size", .number 5)])])]

def catRequest : Request where
  method := .post
  url := .node (bytes "127.0.0.1") 9095 catPath
  query := [(bytes "arg", demoFile)]

/-- A file of five bytes that comes in two pieces. -/
def fetching : Trace :=
  [⟨.httpClientNew .ipfsGetFileLength, true⟩, ⟨.perform lsRequest, demoReply 200 lsText⟩,
    ⟨.realloc (ResponseBody.empty.newSize lsText.length), true⟩, ⟨.heapAfter (collected lsText), [0]⟩,
    ⟨.cjsonParse lsText, some lsJson⟩, ⟨.httpClientNew .ipfsGetFileToBuffer, true⟩,
    ⟨.perform catRequest, ⟨[bytes "hel", bytes "lo"], 0, 0, 200⟩⟩]

end HiveSdk
