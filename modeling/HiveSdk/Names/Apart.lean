import HiveSdk.Names.Operations
import HiveSdk.Uri.Path

/-!
# Names and items

Names are pasted into URLs as they are, so what an operation addresses depends on how the URL is read. A name that RFC 3986 takes literally stays in its folder and has its items to itself. A name with a query, a fragment, a percent escape or a dot segment in it may share them with another, or lead out of the folder.
-/

namespace HiveSdk

open Interaction
open Uri (resolve Plain)

/-- What a request for an item puts behind the path. Folders are created below `:/children`. -/
def Url.itemSuffix : Url → Option Bytes
  | .item _ suffix => if suffix = bytes ":/children" then none else some suffix
  | _ => none

/-- A run of the operation has come to the request. -/
def Operation.Asks (op : Operation) (name : Name) (req : Request) : Prop :=
  ∃ p tr k, Steps (op.run name p) tr (.ask (.perform req) k)

/-! ### The requests of an operation -/

/-- The requests for items are requests for this path. -/
def OnPath (path : Bytes) : Event → Prop
  | .perform req => ∀ suffix, req.url.itemSuffix = some suffix →
      req.url = .item path suffix ∧ ∃ c : ItemCall, c.suffix = suffix
  | _ => True

theorem indifferent_onPath (path : Bytes) : Indifferent (OnPath path) := by
  intro e he
  cases e with
  | perform req =>
      intro suffix hsuffix
      obtain ⟨method, url, query, headers, body, mime⟩ := req
      cases url <;> first | cases hsuffix | exact he.elim
  | _ => trivial

theorem folderUrl_itemSuffix (path : Bytes) : (FolderService.folderUrl path).itemSuffix = none := by
  rw [FolderService.folderUrl]
  split
  · rfl
  · rw [Url.itemSuffix, if_pos rfl]

theorem onPath_run (op : Operation) (name : Name) :
    Proc.Within (OnPath (op.dir ++ bytes "/" ++ name.text)) (op.run name) := by
  refine Operation.within_run (indifferent_onPath _) fun _ c _ url hformats => ⟨fun _ => trivial, ?_⟩
  intro hfits req hreq suffix hsuffix
  rw [hreq] at hsuffix ⊢
  rcases hformats with rfl | ⟨-, rfl⟩
  · have hwhole := (FolderService.fits_snprintf_iff (P := fun _ => True)).1 ⟨hfits, trivial⟩
    have hpath : op.path name = op.dir ++ bytes "/" ++ name.text := snprintf_of_fits hwhole.1
    have hsame : c.suffix = suffix := by
      rw [Url.itemSuffix] at hsuffix
      split at hsuffix
      · cases hsuffix
      · exact Option.some.inj hsuffix
    exact ⟨by rw [hpath, hsame], c, hsame⟩
  · rw [folderUrl_itemSuffix] at hsuffix
    cases hsuffix

theorem url_of_asks {op : Operation} {name : Name} {req : Request} {suffix : Bytes}
    (h : op.Asks name req) (hsuffix : req.url.itemSuffix = some suffix) :
    req.url = .item (op.dir ++ bytes "/" ++ name.text) suffix ∧ ∃ c : ItemCall, c.suffix = suffix := by
  obtain ⟨p, tr, k, hsteps⟩ := h
  exact Proc.within_iff.1 (onPath_run op name) p tr _ k hsteps suffix hsuffix

/-! ### What they address -/

/-- The segments of the drive's root for applications. -/
def driveRoot : List Bytes :=
  [bytes "v1.0", bytes "me", bytes "drive", bytes "special", bytes "approot:"]

/-- The name of an operation's folder. -/
def Operation.folder (op : Operation) : Bytes := op.dir.tail

theorem Operation.dir_cases (op : Operation) : op.dir = filesDir ∨ op.dir = keysDir := by
  cases op <;> simp only [dir, true_or, or_true]

theorem Operation.dir_eq (op : Operation) : op.dir = Uri.slash :: op.folder := by
  rw [folder]
  rcases op.dir_cases with h | h <;> rw [h] <;> decide

theorem Operation.folder_literal (op : Operation) : Plain op.folder ∧ Uri.slash ∉ op.folder := by
  have hliteral : ∀ dir, dir = filesDir ∨ dir = keysDir → Uri.question ∉ dir.tail ∧ Uri.hash ∉ dir.tail
      ∧ Uri.percent ∉ dir.tail ∧ (∀ s ∈ dir.tail.splitOn Uri.slash, ¬ Uri.IsDots s) ∧ Uri.slash ∉ dir.tail := by
    intro dir hdir
    rcases hdir with rfl | rfl <;> decide
  obtain ⟨hquestion, hhash, hpercent, hdots, hslash⟩ := hliteral op.dir op.dir_cases
  exact ⟨⟨hquestion, hhash, Uri.not_escaped_of_notMem hpercent, hdots⟩, hslash⟩

/-- Whatever follows a literal name in a URL is literal, too. -/
theorem plain_suffixed {text : Bytes} (h : Plain text) (c : ItemCall) : Plain (text ++ c.suffix) := by
  have hliteral : ∀ word : Bytes, Uri.question ∉ word ∧ Uri.hash ∉ word ∧ Uri.percent ∉ word
      ∧ (∀ s ∈ word.splitOn slash, ¬ Uri.IsDots s) → Plain (text ++ (bytes ":" ++ slash :: word)) := by
    rintro word ⟨hquestion, hhash, hpercent, hdots⟩
    rw [← List.append_assoc]
    exact Uri.plain_append_slash_iff.2
      ⟨h.concat_colon, hquestion, hhash, Uri.not_escaped_of_notMem hpercent, hdots⟩
  cases c with
  | put content =>
      rw [ItemCall.suffix, Item.uploadSuffix]
      split
      · exact hliteral (bytes "content") (by decide)
      · exact hliteral (bytes "createUploadSession") (by decide)
  | delete => exact h.concat_colon
  | _ => exact (List.append_nil text).symm ▸ h

private theorem plain_root : Plain (bytes "v1.0/me/drive/special/approot:") :=
  ⟨by decide, by decide, Uri.not_escaped_of_notMem (by decide), by decide⟩

/-- A literal name is found in its folder, with what the request puts behind it. -/
theorem resolve_item (op : Operation) {text : Bytes} (h : Plain text) (c : ItemCall) :
    resolve (Url.item (op.dir ++ bytes "/" ++ text) c.suffix).text
      = some (driveRoot ++ [op.folder] ++ (text ++ c.suffix).splitOn Uri.slash) := by
  have hroot : appRoot ++ bytes ":" = bytes "https" ++ Uri.colon :: Uri.slash :: Uri.slash ::
      (bytes "graph.microsoft.com" ++ Uri.slash :: bytes "v1.0/me/drive/special/approot:") := by decide
  have htext : (Url.item (op.dir ++ bytes "/" ++ text) c.suffix).text
      = bytes "https" ++ Uri.colon :: Uri.slash :: Uri.slash :: (bytes "graph.microsoft.com" ++ Uri.slash ::
        (bytes "v1.0/me/drive/special/approot:" ++ Uri.slash :: (op.folder ++ Uri.slash :: (text ++ c.suffix)))) := by
    have hslash : bytes "/" = [Uri.slash] := by decide
    rw [Url.text, hroot, op.dir_eq, hslash]
    simp only [List.append_assoc, List.cons_append, List.nil_append]
  have hpath : Plain (bytes "v1.0/me/drive/special/approot:" ++ Uri.slash ::
      (op.folder ++ Uri.slash :: (text ++ c.suffix))) :=
    Uri.plain_append_slash_iff.2 ⟨plain_root,
      Uri.plain_append_slash_iff.2 ⟨op.folder_literal.1, plain_suffixed h c⟩⟩
  have hsegments : (bytes "v1.0/me/drive/special/approot:").splitOn Uri.slash = driveRoot := by decide
  have hscheme : Uri.colon ∉ bytes "https" := by decide
  have hauthority : ∀ c ∈ bytes "graph.microsoft.com", Uri.endsAuthority c = false := by
    have hall : (bytes "graph.microsoft.com").all (fun c => !Uri.endsAuthority c) = true := by decide
    simpa using hall
  rw [htext, Uri.resolve_of_plain hscheme hauthority hpath, List.splitOn_append_cons_self,
    List.splitOn_append_cons_self, hsegments, List.splitOn_eq_singleton op.folder_literal.2, List.append_assoc]

/-- The text that the drive takes for the path of an item: what is left behind the root, as far as the next colon. -/
def itemText (resolved : List Bytes) : Bytes :=
  ([Uri.slash].intercalate (resolved.drop driveRoot.length)).takeWhile (· ≠ Uri.colon)

/-- Without a colon in the name, that text is the folder and the name, whatever is put behind them. -/
theorem itemText_item (op : Operation) {text : Bytes} (h : Uri.colon ∉ text) (c : ItemCall) :
    itemText (driveRoot ++ [op.folder] ++ (text ++ c.suffix).splitOn Uri.slash)
      = op.folder ++ Uri.slash :: text := by
  have hbehind : c.suffix = [] ∨ ∃ rest, c.suffix = Uri.colon :: rest := by
    cases c with
    | put content =>
        rw [ItemCall.suffix, Item.uploadSuffix]
        split
        · exact .inr ⟨_, rfl⟩
        · exact .inr ⟨_, rfl⟩
    | delete => exact .inr ⟨[], rfl⟩
    | _ => exact .inl rfl
  have hcolon : Uri.colon ∉ op.folder ++ Uri.slash :: text := by
    have hfolder : Uri.colon ∉ op.folder := by
      rw [Operation.folder]
      rcases op.dir_cases with hdir | hdir <;> rw [hdir] <;> decide
    simpa [hfolder, h] using (by decide : Uri.colon ≠ Uri.slash)
  rw [itemText, List.append_assoc, List.drop_left, List.singleton_append,
    List.intercalate_cons_of_ne_nil (List.splitOn_ne_nil _ _), List.intercalate_splitOn, List.append_assoc,
    List.singleton_append, ← List.cons_append, ← List.append_assoc]
  rcases hbehind with hnil | ⟨rest, hcons⟩
  · rw [hnil, List.append_nil]
    apply List.takeWhile_eq_self_iff.2
    intro b hb
    have hne : b ≠ Uri.colon := fun heq => hcolon (heq ▸ hb)
    simpa using hne
  · rw [hcons]
    exact (Uri.cut_at hcolon).1

/-! ### Names that keep apart -/

/-- The request goes to something in the folder. -/
def Request.Below (dir : Bytes) (req : Request) : Prop :=
  ∃ rest, rest ≠ [] ∧ resolve req.url.text = some (driveRoot ++ [dir.tail] ++ rest)

theorem folder_injective {op op' : Operation} (h : op.folder = op'.folder) : op.dir = op'.dir := by
  rw [op.dir_eq, op'.dir_eq, h]

/-- Names that are taken literally stay in their folders and never meet: not in requests that put the same behind the path, and if they have no colon, not in the drive's reading of any two requests. -/
theorem items_apart (op op' : Operation) (name name' : Name) (hname : Plain name.text)
    (hname' : Plain name'.text) :
    (∀ req suffix, op.Asks name req → req.url.itemSuffix = some suffix → req.Below op.dir)
    ∧ (∀ req req' suffix, op.Asks name req → op'.Asks name' req' → req.url.itemSuffix = some suffix →
        req'.url.itemSuffix = some suffix → resolve req.url.text = resolve req'.url.text →
        op.dir = op'.dir ∧ name.text = name'.text)
    ∧ (Uri.colon ∉ name.text → Uri.colon ∉ name'.text → ∀ req req' suffix suffix', op.Asks name req →
        op'.Asks name' req' → req.url.itemSuffix = some suffix → req'.url.itemSuffix = some suffix' →
        (resolve req.url.text).map itemText = (resolve req'.url.text).map itemText →
        op.dir = op'.dir ∧ name.text = name'.text) := by
  refine ⟨?_, ?_, ?_⟩
  · intro req suffix hasks hsuffix
    obtain ⟨hurl, c, rfl⟩ := url_of_asks hasks hsuffix
    rw [Request.Below, hurl]
    exact ⟨_, List.splitOn_ne_nil _ _, resolve_item op hname c⟩
  · intro req req' suffix hasks hasks' hsuffix hsuffix' hsame
    obtain ⟨hurl, c, rfl⟩ := url_of_asks hasks hsuffix
    obtain ⟨hurl', -⟩ := url_of_asks hasks' hsuffix'
    rw [hurl, hurl', resolve_item op hname c, resolve_item op' hname' c] at hsame
    simp only [Option.some.injEq, List.append_assoc, List.append_cancel_left_eq, List.singleton_append,
      List.cons.injEq] at hsame
    have htext := Uri.eq_of_splitOn_eq hsame.2
    exact ⟨folder_injective hsame.1, List.append_cancel_right htext⟩
  · intro hcolon hcolon' req req' suffix suffix' hasks hasks' hsuffix hsuffix' hsame
    obtain ⟨hurl, c, rfl⟩ := url_of_asks hasks hsuffix
    obtain ⟨hurl', c', rfl⟩ := url_of_asks hasks' hsuffix'
    rw [hurl, hurl', resolve_item op hname c, resolve_item op' hname' c', Option.map_some, Option.map_some,
      itemText_item op hcolon c, itemText_item op' hcolon' c'] at hsame
    have hitem := Option.some.inj hsame
    have hfolder := congrArg (List.takeWhile (· ≠ Uri.slash)) hitem
    rw [(Uri.cut_at op.folder_literal.2).1, (Uri.cut_at op'.folder_literal.2).1] at hfolder
    rw [hfolder] at hitem
    exact ⟨folder_injective hfolder, List.cons_injective (List.append_cancel_left hitem)⟩

/-! ### Names that meet -/

/-- The request for the size of a file. -/
def lengthRequest (name : Name) : Request where
  method := .get
  url := .item (OneDrive.filePath name.text) []
  query := [(bytes "select", bytes "size")]
  headers := [(authorization, bytes "A")]

def deletion (dir : Bytes) (name : Name) : Request where
  method := .delete
  url := .item (dir ++ bytes "/" ++ name.text) (bytes ":")
  headers := [(authorization, bytes "A")]

theorem asks_length {name : Name} (h : (lengthRequest name).url.Fits) :
    Operation.getFileLength.Asks name (lengthRequest name) := by
  have hfits : ¬ (Url.item (OneDrive.filePath name.text) []).text.length ≥ maxUrlLen := not_le.2 h
  have hshort : ¬ (OneDrive.filePath name.text).length ≥ pathMax := not_le.2 (path_short h)
  have hsteps : ∃ k, Steps (Operation.getFileLength.run name demoProcess)
      [⟨.gettimeofday, demoTime⟩, ⟨.httpClientNew .getFileLength, true⟩]
      (.ask (.perform (lengthRequest name)) k) := by
    rw [Operation.run, Operation.hiveGetFileLength_eq, dispatchLength, OneDrive.getFileLength, if_neg hshort,
      Item.getFileLength, Item.getFileInfo, formatUrl, if_neg hfits]
    apply Exists.intro
    iterate 2 refine .ask _ _ _ ?_
    exact .refl _
  obtain ⟨k, hsteps⟩ := hsteps
  exact ⟨demoProcess, _, k, hsteps⟩

theorem asks_deleteFile {name : Name} (h : (deletion filesDir name).url.Fits) :
    Operation.deleteFile.Asks name (deletion filesDir name) := by
  have hfits : ¬ (Url.item (OneDrive.filePath name.text) (bytes ":")).text.length ≥ maxUrlLen := not_le.2 h
  have hshort : ¬ (OneDrive.filePath name.text).length ≥ pathMax := not_le.2 (path_short h)
  have hsteps : ∃ k, Steps (Operation.deleteFile.run name demoProcess)
      [⟨.gettimeofday, demoTime⟩, ⟨.httpClientNew .deleteFile, true⟩]
      (.ask (.perform (deletion filesDir name)) k) := by
    rw [Operation.run, Operation.hiveDeleteFile_eq, dispatch, OneDrive.deleteFile, if_neg hshort,
      Item.deleteFile, formatUrl, if_neg hfits]
    apply Exists.intro
    iterate 2 refine .ask _ _ _ ?_
    exact .refl _
  obtain ⟨k, hsteps⟩ := hsteps
  exact ⟨demoProcess, _, k, hsteps⟩

theorem asks_deleteKey {name : Name} (h : (deletion keysDir name).url.Fits) :
    Operation.deleteKey.Asks name (deletion keysDir name) := by
  have hpath : OneDrive.keyPath name.text = keysDir ++ bytes "/" ++ name.text := snprintf_of_fits h
  have hfits : ¬ (Url.item (keysDir ++ bytes "/" ++ name.text) (bytes ":")).text.length ≥ maxUrlLen := not_le.2 h
  have hsteps : ∃ k, Steps (Operation.deleteKey.run name demoProcess)
      [⟨.gettimeofday, demoTime⟩, ⟨.httpClientNew .deleteFile, true⟩]
      (.ask (.perform (deletion keysDir name)) k) := by
    rw [Operation.run, Operation.hiveDeleteKey_eq, dispatch, OneDrive.deleteKey, hpath, Item.deleteFile,
      formatUrl, if_neg hfits]
    apply Exists.intro
    iterate 2 refine .ask _ _ _ ?_
    exact .refl _
  obtain ⟨k, hsteps⟩ := hsteps
  exact ⟨demoProcess, _, k, hsteps⟩

/-- Two operations of one kind on different names address the same. -/
def Operation.Collides (op : Operation) (name name' : Name) : Prop :=
  name.text ≠ name'.text ∧ ∃ req req' suffix, op.Asks name req ∧ op.Asks name' req'
    ∧ req.url.itemSuffix = some suffix ∧ req'.url.itemSuffix = some suffix
    ∧ resolve req.url.text = resolve req'.url.text

def named (text : Bytes) (h : text ≠ [] ∧ 0 ∉ text) : Name := ⟨text, h.1, h.2⟩

private theorem lengths_collide {name name' : Name} (hne : name.text ≠ name'.text)
    (h : (lengthRequest name).url.Fits) (h' : (lengthRequest name').url.Fits)
    (hsame : resolve (lengthRequest name).url.text = resolve (lengthRequest name').url.text) :
    Operation.getFileLength.Collides name name' :=
  ⟨hne, _, _, [], asks_length h, asks_length h', rfl, rfl, hsame⟩

def upward : Name := named (bytes "../KeyValues/k") (by decide)

def plainKey : Name := named (bytes "k") (by decide)

def otherKey : Name := named (bytes "ab") (by decide)

def escapedKey : Name := named (bytes "a%62") (by decide)

set_option maxRecDepth 10000 in
/-- A query, a fragment, a dot segment and a percent escape let two names meet, and a double dot leads from the files to the keys. -/
theorem names_collide :
    Operation.getFileLength.Collides (named (bytes "a?x") (by decide)) (named (bytes "a?y") (by decide))
    ∧ Operation.getFileLength.Collides (named (bytes "a#x") (by decide)) (named (bytes "a#y") (by decide))
    ∧ Operation.getFileLength.Collides (named (bytes "a/./b") (by decide)) (named (bytes "a/b") (by decide))
    ∧ Operation.deleteKey.Collides escapedKey otherKey
    ∧ Operation.deleteFile.Asks upward (deletion filesDir upward)
    ∧ ¬ (deletion filesDir upward).Below filesDir
    ∧ resolve (deletion filesDir upward).url.text = resolve (deletion keysDir plainKey).url.text := by
  have hescaped : Operation.deleteKey.Collides escapedKey otherKey :=
    ⟨by decide, _, _, bytes ":", asks_deleteKey (by decide), asks_deleteKey (by decide), by decide,
      by decide, by decide⟩
  have hleaves : ¬ (deletion filesDir upward).Below filesDir := by
    rintro ⟨rest, -, hrest⟩
    have hfolder := congrArg (Option.map fun segments => segments[5]?) hrest
    have hother : (resolve (deletion filesDir upward).url.text).map (fun segments => segments[5]?)
        ≠ some (some filesDir.tail) := by decide
    exact hother hfolder
  refine ⟨lengths_collide (by decide) (by decide) (by decide) (by decide),
    lengths_collide (by decide) (by decide) (by decide) (by decide),
    lengths_collide (by decide) (by decide) (by decide) (by decide), hescaped,
    asks_deleteFile (by decide), hleaves, by decide⟩

set_option maxRecDepth 10000 in
/-- Two keys that are taken literally. -/
theorem deletions_apart : (deletion keysDir plainKey).Below keysDir
    ∧ resolve (deletion keysDir plainKey).url.text ≠ resolve (deletion keysDir otherKey).url.text := by
  have hplain : Plain plainKey.text :=
    ⟨by decide, by decide, Uri.not_escaped_of_notMem (by decide), by decide⟩
  have hplain' : Plain otherKey.text :=
    ⟨by decide, by decide, Uri.not_escaped_of_notMem (by decide), by decide⟩
  have hasks : Operation.deleteKey.Asks plainKey (deletion keysDir plainKey) := asks_deleteKey (by decide)
  have hasks' : Operation.deleteKey.Asks otherKey (deletion keysDir otherKey) := asks_deleteKey (by decide)
  obtain ⟨hbelow, happart, -⟩ := items_apart .deleteKey .deleteKey plainKey otherKey hplain hplain'
  refine ⟨hbelow _ (bytes ":") hasks (by decide), fun hsame => ?_⟩
  have hnames := happart _ _ (bytes ":") hasks hasks' (by decide) (by decide) hsame
  exact absurd hnames.2 (by decide)

end HiveSdk
