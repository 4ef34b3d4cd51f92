import HiveSdk.Drive.World
import HiveSdk.Errors.Refresh

/-!
# Paged listings

A listing follows the links from page to page, collects the items, and calls the application only when the last page has been read. So either every page is good and the application gets every name, in order, or some page is not and the application is not called at all.
-/

namespace HiveSdk

open Interaction OneDrive

/-! ### Pages -/

/-- A page as it comes: who answered what, whether the client had the memory for it, and what the parser made of it if it was asked. -/
structure Page where
  url : Url
  reply : Reply
  allocated : Bool := true
  json : Option (Option Json) := none

/-- The items of a page and the link to the next one, if all of it is well formed. -/
def Page.read (json : Json) : Option (List Json × Option Bytes) := do
  let items ← (json.getObjectItemCaseSensitive (bytes "value")).bind Json.asArray
  if ∀ item ∈ items, (itemName item).isSome then
    match json.getObjectItemCaseSensitive (bytes "@odata.nextLink") with
    | none => return (items, none)
    | some _ => do
        let link ← json.stringItem (bytes "@odata.nextLink")
        return (items, some link)
  else none

def Page.content (page : Page) : Option (List Json × Option Bytes) :=
  (page.json.join).bind Page.read

/-- The link of a page. -/
def Page.link (page : Page) : Option Bytes := page.content.bind Prod.snd

structure Page.Good (page : Page) : Prop where
  answered : page.reply.answered = some HttpStatus.ok
  allocated : page.allocated
  content : page.content.isSome

/-- The ways in which a page can fail: the transfer, its status, the memory for it, or its text. -/
inductive Page.Fails (page : Page) : Prop
  | transfer (h : page.reply.answered ≠ some HttpStatus.ok)
  | memory (h : page.allocated = false)
  | unparsable (h : page.json = some none)
  | malformed (json : Json) (hjson : page.json = some (some json)) (h : Page.read json = none)

/-- What a run of `list_files` has seen: the pages, the newest first, and the calls of the application with what they returned. -/
structure Listing where
  pages : List Page := []
  calls : List (Option Bytes × Bool) := []

/-- The requests for a page. -/
def Url.isPage : Url → Bool
  | .item _ _ | .nextLink _ => true
  | _ => false

def Listing.observe (l : Listing) (entry : Entry Event Event.Answer) : Listing :=
  match entry with
  | ⟨.perform req, reply⟩ =>
      if req.url.isPage then { l with pages := { url := req.url, reply := reply } :: l.pages } else l
  | ⟨.realloc _, ok⟩ =>
      { l with pages := l.pages.modifyHead fun page => { page with allocated := page.allocated && ok } }
  | ⟨.cjsonParse _, json⟩ =>
      { l with pages := l.pages.modifyHead fun page => { page with json := some json } }
  | ⟨.filesCallback name, resume⟩ => { l with calls := l.calls ++ [(name, resume)] }
  | _ => l

def Listing.of (tr : Trace) : Listing := tr.foldl Listing.observe {}

section
variable {p : Process OneDriveConnect} {l : Listing}

/-! ### One page -/

theorem mergeArray_of_named {sub array : List Json} (h : ∀ item ∈ sub, (itemName item).isSome) :
    mergeArray sub array = (0, array ++ sub) := by
  induction sub generalizing array with
  | nil => rw [mergeArray, List.append_nil]
  | cons item sub ih =>
      have hitem : ¬ (itemName item).isNone := by
        rw [Option.isNone_iff_eq_none, ← ne_eq, Option.ne_none_iff_isSome]
        exact h item List.mem_cons_self
      rw [mergeArray, if_neg hitem, ih fun item' h' => h item' (List.mem_cons_of_mem _ h'),
        List.append_assoc, List.singleton_append]

theorem mergeArray_of_unnamed {sub array : List Json}
    (h : ¬ ∀ item ∈ sub, (itemName item).isSome) :
    (mergeArray sub array).1 = cInt (hiveGeneralError HiveErr.badJsonFormat) := by
  induction sub generalizing array with
  | nil => exact absurd (fun item hitem => nomatch hitem) h
  | cons item sub ih =>
      rw [mergeArray]
      by_cases hitem : (itemName item).isNone
      · rw [if_pos hitem]
      · rw [if_neg hitem]
        refine ih fun hsub => h fun item' h' => ?_
        rcases List.mem_cons.1 h' with rfl | h'
        · rwa [Option.isNone_iff_eq_none, ← ne_eq, Option.ne_none_iff_isSome] at hitem
        · exact hsub item' h'

theorem stringItem_of_itemName {item : Json} {name : Bytes} (h : itemName item = some name) :
    item.stringItem (bytes "name") = some name := by
  obtain ⟨name', hname, hrest⟩ := Option.bind_eq_some_iff.1 h
  rw [hname]
  split at hrest
  · split at hrest
    · exact hrest
    · cases hrest
  · split at hrest
    · exact hrest
    · cases hrest
  · cases hrest

end

end HiveSdk
