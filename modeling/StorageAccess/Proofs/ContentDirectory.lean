import StorageAccess.Lib.Joined
import StorageAccess.Proofs.Didl
import StorageAccess.Proofs.UpnpPaths
/-!
# Resolving a path in a content directory

A content directory is a tree of containers and items, and a server answers a Browse
request for an object with its children. The walk takes the first child with a title
at every step. It finds a container that the titles lead to exactly when these first
children are containers, or when the walk stops where no containers lead on.
-/

open Posix Xml

namespace StorageAccess

/-! ## Content directories -/

/-- The children of a container, each with its next siblings. -/
inductive Children
  | nil
  | container (id : Nat) (title : Str) (children next : Children)
  | item (id : Nat) (title : Str) (next : Children)
  deriving DecidableEq

/-- One object of a directory; an item has no list of children. -/
structure DirObject where
  id : Nat
  title : Str
  children : Option Children
  deriving DecidableEq

namespace DirObject

/-- What a Browse request for the object lists. -/
def listing (o : DirObject) : Children := o.children.getD .nil

end DirObject

namespace Children

def objects : Children → List DirObject
  | nil => []
  | container id title children next => ⟨id, title, some children⟩ :: next.objects
  | item id title next => ⟨id, title, none⟩ :: next.objects

/-- All objects at any depth. -/
def descendants : Children → List DirObject
  | nil => []
  | container id title children next => ⟨id, title, some children⟩ :: (children.descendants ++ next.descendants)
  | item id title next => ⟨id, title, none⟩ :: next.descendants

theorem objects_subset {cs : Children} {o : DirObject} (h : o ∈ cs.objects) : o ∈ cs.descendants := by
  induction cs with
  | nil => exact h
  | container id title children next ihc ihn =>
    rcases List.mem_cons.1 h with rfl | h
    · exact List.mem_cons_self
    · exact List.mem_cons_of_mem _ (List.mem_append_right _ (ihn h))
  | item id title next ih =>
    rcases List.mem_cons.1 h with rfl | h
    · exact List.mem_cons_self
    · exact List.mem_cons_of_mem _ (ih h)

theorem descendants_trans {cs : Children} {o o' : DirObject} (h : o ∈ cs.descendants)
    (h' : o' ∈ o.listing.descendants) : o' ∈ cs.descendants := by
  induction cs with
  | nil => cases h
  | container id title children next ihc ihn =>
    refine List.mem_cons_of_mem _ (List.mem_append.2 ?_)
    rcases List.mem_cons.1 h with rfl | h
    · exact .inl h'
    · exact (List.mem_append.1 h).imp ihc ihn
  | item id title next ih =>
    rcases List.mem_cons.1 h with rfl | h
    · cases h'
    · exact List.mem_cons_of_mem _ (ih h)

/-- The titles lead through containers to the container with the id. -/
inductive Chain : Children → List Str → Nat → Prop
  | last {cs : Children} {o : DirObject} (mem : o ∈ cs.objects) (container : o.children.isSome) : Chain cs [o.title] o.id
  | step {cs : Children} {o : DirObject} {titles : List Str} {id : Nat} (mem : o ∈ cs.objects)
      (container : o.children.isSome) (rest : Chain o.listing titles id) : Chain cs (o.title :: titles) id

/-- Where the first objects with the titles lead. -/
def firsts : Children → List Str → Option DirObject
  | _, [] => none
  | cs, [title] => cs.objects.find? (·.title = title)
  | cs, title :: titles => (cs.objects.find? (·.title = title)).bind fun o => o.listing.firsts titles

/-- The ids that are listed on the way there are in the range of an `int`. -/
def IntIds : Children → List Str → Prop
  | _, [] => True
  | cs, title :: titles =>
    (∀ o ∈ cs.objects, o.id < 2 ^ 31) ∧ ∀ o, cs.objects.find? (·.title = title) = some o → o.listing.IntIds titles

end Children

/-- A directory: the children of its root, whose id is 0. All ids differ. -/
structure ContentDirectory where
  root : Children
  distinct : (0 :: root.descendants.map (·.id)).Nodup

namespace ContentDirectory

def objects (dir : ContentDirectory) : List DirObject := ⟨0, [], some dir.root⟩ :: dir.root.descendants

theorem root_mem (dir : ContentDirectory) : (⟨0, [], some dir.root⟩ : DirObject) ∈ dir.objects := List.mem_cons_self

theorem mem_of_listing {dir : ContentDirectory} {o o' : DirObject} (h : o ∈ dir.objects) (h' : o' ∈ o.listing.objects) :
    o' ∈ dir.objects := by
  rcases List.mem_cons.1 h with rfl | h
  · exact List.mem_cons_of_mem _ (Children.objects_subset h')
  · exact List.mem_cons_of_mem _ (Children.descendants_trans h (Children.objects_subset h'))

/-- An id belongs to one object. -/
theorem eq_of_id {dir : ContentDirectory} {o o' : DirObject} (h : o ∈ dir.objects) (h' : o' ∈ dir.objects)
    (hid : o.id = o'.id) : o = o' := by
  have hdistinct : (dir.objects.map DirObject.id).Nodup := dir.distinct
  exact List.inj_on_of_nodup_map hdistinct h h' hid

end ContentDirectory

namespace Children

/-- The object the first ones lead to is in the directory. -/
theorem firsts_mem {dir : ContentDirectory} {start o : DirObject} (hstart : start ∈ dir.objects) {titles : List Str}
    (h : start.listing.firsts titles = some o) : o ∈ dir.objects := by
  induction titles generalizing start with
  | nil => cases h
  | cons title titles ih =>
    cases titles with
    | nil => exact ContentDirectory.mem_of_listing hstart (List.mem_of_find?_eq_some h)
    | cons title' titles =>
      obtain ⟨o', ho', hrest⟩ := Option.bind_eq_some_iff.1 h
      exact ih (ContentDirectory.mem_of_listing hstart (List.mem_of_find?_eq_some ho')) hrest

theorem Chain.mem {dir : ContentDirectory} {start : DirObject} (hstart : start ∈ dir.objects) {titles : List Str} {id : Nat}
    (h : Chain start.listing titles id) : ∃ o ∈ dir.objects, o.children.isSome ∧ o.id = id := by
  generalize hcs : start.listing = cs at h
  induction h generalizing start with
  | last hmem hcont =>
    subst hcs
    exact ⟨_, ContentDirectory.mem_of_listing hstart hmem, hcont, rfl⟩
  | step hmem hcont hrest ih =>
    subst hcs
    exact ih (ContentDirectory.mem_of_listing hstart hmem) rfl

/-- First objects that lead to a container are containers all the way. -/
theorem chain_of_firsts {cs : Children} {titles : List Str} {o : DirObject} (h : cs.firsts titles = some o)
    (ho : o.children.isSome) : Chain cs titles o.id := by
  induction titles generalizing cs with
  | nil => cases h
  | cons title titles ih =>
    cases titles with
    | nil =>
      obtain rfl : o.title = title := by simpa using List.find?_some h
      exact .last (List.mem_of_find?_eq_some h) ho
    | cons title' titles =>
      obtain ⟨o', ho', hrest⟩ := Option.bind_eq_some_iff.1 h
      obtain rfl : o'.title = title := by simpa using List.find?_some ho'
      have hcont : o'.children.isSome := by
        by_contra hc
        have hnil : o'.listing = .nil := by rw [DirObject.listing, Option.not_isSome_iff_eq_none.1 hc]; rfl
        rw [hnil] at hrest
        cases titles <;> cases hrest
      exact .step (List.mem_of_find?_eq_some ho') hcont (ih hrest)

end Children

/-! ## Servers -/

open XMLHandler UpnpOperation

/-- The node of an object: what stands in front says its id, its title and that of its
container, and the other numbers can be read or are missing. -/
structure ShowsObject (parentID : Nat) (i : Item) (o : DirObject) : Prop where
  kind : i.name = some (if o.children.isSome then "container".toList else "item".toList)
  id : attrText (valued i) "id".toList = toText o.id
  parentID : attrText (valued i) "parentID".toList = toText parentID
  restricted : (readNumber (attrText (valued i) "restricted".toList) (-1)).isSome
  childCount : (readNumber (attrText (valued i) "childCount".toList) 0).isSome
  title : lastText (front i.children) "title".toList = o.title

/-- The tree lists the children of an object, in their order, and nothing else. -/
structure Answers (parentID : Nat) (cs : Children) (t : Tree) : Prop where
  names : ∀ i ∈ t.items, i.name ≠ none
  objects : List.Forall₂ (ShowsObject parentID) (t.items.filter isEntry) cs.objects

/-- An envelope with one result. -/
structure SoapResult (t : Tree) (result : Str) : Prop where
  names : ∀ i ∈ t.items, i.name ≠ none
  result : texts "Result".toList t.items = [result]

/-- Every Browse request for an object of the directory is answered with its children. -/
def Browses (web : Web) (mControlUrl : Str) (dir : ContentDirectory) : Prop :=
  ∀ o ∈ dir.objects, ∃ resXml result, web.send (browse mControlUrl o.id) = some resXml ∧ resXml ≠ [] ∧
    SoapResult (web.xmlReadDoc resXml) result ∧ Answers o.id o.listing (web.xmlReadDoc result)

/-- The server at the URL describes a content directory, which it serves. -/
def Serves (web : Web) (url : Str) (dir : ContentDirectory) : Prop :=
  ∃ temp controlUrl, web.send (description url) = some temp ∧
    getValueUnderSameParent (web.xmlReadDoc temp) "controlURL".toList "serviceType".toList
      "service:ContentDirectory:1".toList = some controlUrl ∧
    Browses web (NetworkProvider.beforeLastSlash url ++ controlUrl) dir

theorem texts_eq_filterMap (key : Str) (l : List Item) : texts key l = l.filterMap (elementMatch key) := by
  induction l with
  | nil => rfl
  | cons i l ih =>
    by_cases hi : i.isElement = true ∧ i.name = some key
    · have hmatch : elementMatch key i = some i.children.content := if_pos hi
      rw [List.filterMap_cons_some hmatch, ← ih, texts, List.filter_cons_of_pos (by simpa using hi)]
      rfl
    · have hmatch : elementMatch key i = none := if_neg hi
      rw [List.filterMap_cons_none hmatch, ← ih, texts, List.filter_cons_of_neg (by simpa using hi)]
      rfl

theorem SoapResult.getValue {t : Tree} {result : Str} (h : SoapResult t result) :
    getValue t "Result".toList = some result :=
  Tree.walk_of_single (elementMatch_leaf _) h.names ((texts_eq_filterMap _ _).symm.trans h.result) []

/-- A record with the id and the title of an object. -/
def RecordOf (o : DirObject) (d : DirDetails) : Prop := d.id = o.id ∧ d.title = o.title

theorem readNumber_toText (n default : Int) :
    readNumber (toText n) default = if n < -2 ^ 31 ∨ 2 ^ 31 ≤ n then none else some n := by
  have hne : toText n ≠ [] := by
    unfold toText
    split
    · exact List.cons_ne_nil _ _
    · exact Nat.toDigits_ne_nil
  rw [readNumber, if_neg hne, stoi_toText]

section Listing
variable {parentID : Nat}

/-- The node of an object gives its record if the id is an `int`, and throws otherwise. -/
theorem ShowsObject.entryDetails {i : Item} {o : DirObject} (h : ShowsObject parentID i o) :
    (o.id < 2 ^ 31 → ∃ d, entryDetails parentID i = some d ∧ RecordOf o d) ∧
      (¬ o.id < 2 ^ 31 → XMLHandler.entryDetails parentID i = none) := by
  have hread : readAttributes i.properties {} =
      ⟨toText o.id, toText parentID, attrText (valued i) "restricted".toList, attrText (valued i) "childCount".toList⟩ := by
    rw [← h.id, ← h.parentID]
    exact readAttributes_eq i.properties {}
  obtain ⟨restricted, hrest⟩ := Option.isSome_iff_exists.1 h.restricted
  obtain ⟨childCount, hcount⟩ := Option.isSome_iff_exists.1 h.childCount
  unfold XMLHandler.entryDetails
  rw [hread]
  dsimp only
  rw [if_pos rfl, readNumber_toText]
  constructor
  · intro hsmall
    rw [if_neg (by omega), hrest, hcount]
    refine ⟨_, rfl, ?_⟩
    rw [readChildren_eq]
    exact ⟨rfl, h.title⟩
  · intro hlarge
    rw [if_pos (by omega)]
    rfl

theorem records_of_objects {items : List Item} {objects : List DirObject}
    (h : List.Forall₂ (ShowsObject parentID) items objects) (hsmall : ∀ o ∈ objects, o.id < 2 ^ 31) :
    ∃ ds, List.Forall₂ (fun i e => entryDetails parentID i = some e) items ds ∧ List.Forall₂ RecordOf objects ds := by
  induction h with
  | nil => exact ⟨[], .nil, .nil⟩
  | cons hi hitems ih =>
    obtain ⟨ho, hobjects⟩ := List.forall_mem_cons.1 hsmall
    obtain ⟨ds, hds, hrecords⟩ := ih hobjects
    obtain ⟨d, hd, hrecord⟩ := hi.entryDetails.1 ho
    exact ⟨d :: ds, .cons hd hds, .cons hrecord hrecords⟩

theorem objects_of_records {items : List Item} {objects : List DirObject} {ds : List DirDetails}
    (h : List.Forall₂ (ShowsObject parentID) items objects)
    (hds : List.Forall₂ (fun i e => entryDetails parentID i = some e) items ds) : ∀ o ∈ objects, o.id < 2 ^ 31 := by
  induction h generalizing ds with
  | nil => nofun
  | cons hi hitems ih =>
    cases hds with
    | cons hd hds =>
      refine List.forall_mem_cons.2 ⟨?_, ih hds⟩
      by_contra hlarge
      exact absurd (hd.symm.trans (hi.entryDetails.2 hlarge)) nofun

theorem Answers.getCurDirDetails {cs : Children} {t : Tree} (h : Answers parentID cs t) (hsmall : ∀ o ∈ cs.objects, o.id < 2 ^ 31) :
    ∃ ds, getCurDirDetails t parentID = some ds ∧ List.Forall₂ RecordOf cs.objects ds := by
  obtain ⟨ds, hds, hrecords⟩ := records_of_objects h.objects hsmall
  exact ⟨ds, (getCurDirDetails_iff t parentID ds).2 ⟨h.names, hds⟩, hrecords⟩

theorem Answers.getCurDirDetails_none {cs : Children} {t : Tree} (h : Answers parentID cs t)
    (hlarge : ¬ ∀ o ∈ cs.objects, o.id < 2 ^ 31) : XMLHandler.getCurDirDetails t parentID = none := by
  refine Option.eq_none_iff_forall_ne_some.2 fun ds hds => hlarge ?_
  exact objects_of_records h.objects ((getCurDirDetails_iff t parentID ds).1 hds).2

end Listing

/-! ## The walk -/

/-- The first record with a title is that of the first object with it. -/
theorem find?_records {objects : List DirObject} {ds : List DirDetails} (h : List.Forall₂ RecordOf objects ds) (title : Str) :
    (ds.find? (·.title = title)).map (·.id) = (objects.find? (·.title = title)).map fun o => (o.id : Int) := by
  induction h with
  | nil => rfl
  | cons hd hds ih =>
    rename_i o d objects ds
    by_cases ht : o.title = title
    · simp [hd.2, ht, hd.1]
    · simpa [hd.2, ht] using ih

section Walk
variable {web : Web} {dir : ContentDirectory} {op : UpnpOperation}

/-- The id a step ends with: that of the object, or -1. -/
def idOf (o : Option DirObject) : Int := match o with | some o => o.id | none => -1

theorem getNextDirId_eq (h : Browses web op.mControlUrl dir) {o : DirObject} (ho : o ∈ dir.objects)
    (hsmall : ∀ o' ∈ o.listing.objects, o'.id < 2 ^ 31) (title : Str) :
    getNextDirId web op o.id title = some (idOf (o.listing.objects.find? (·.title = title))) := by
  obtain ⟨resXml, result, hsend, hne, hsoap, hanswers⟩ := h o ho
  obtain ⟨ds, hds, hrecords⟩ := hanswers.getCurDirDetails hsmall
  have hfind := find?_records hrecords title
  unfold getNextDirId
  rw [hsend]
  dsimp only
  rw [if_neg hne, hsoap.getValue, Option.bind_eq_bind, Option.bind_some, hds, Option.bind_eq_bind, Option.bind_some]
  cases hobject : o.listing.objects.find? (·.title = title) with
  | none =>
    rw [hobject, Option.map_none, Option.map_eq_none_iff] at hfind
    rw [hfind]
    rfl
  | some o' =>
    rw [hobject, Option.map_some] at hfind
    obtain ⟨d, hd, hid⟩ := Option.map_eq_some_iff.1 hfind
    rw [hd]
    exact congrArg some hid

theorem getNextDirId_none (h : Browses web op.mControlUrl dir) {o : DirObject} (ho : o ∈ dir.objects)
    (hlarge : ¬ ∀ o' ∈ o.listing.objects, o'.id < 2 ^ 31) (title : Str) : getNextDirId web op o.id title = none := by
  obtain ⟨resXml, result, hsend, hne, hsoap, hanswers⟩ := h o ho
  unfold getNextDirId
  rw [hsend]
  dsimp only
  rw [if_neg hne, hsoap.getValue, Option.bind_eq_bind, Option.bind_some, hanswers.getCurDirDetails_none hlarge]
  rfl

theorem firsts_cons (cs : Children) (title : Str) {titles : List Str} (hne : titles ≠ []) :
    cs.firsts (title :: titles) = (cs.objects.find? (·.title = title)).bind fun o => o.listing.firsts titles := by
  obtain ⟨title', titles, rfl⟩ := List.exists_cons_of_ne_nil hne
  rfl

/-- The walk ends with the id the first objects lead to. -/
theorem walkNames_eq (h : Browses web op.mControlUrl dir) {titles : List Str} (hne : titles ≠ []) {start : DirObject}
    (hstart : start ∈ dir.objects) (hids : start.listing.IntIds titles) (contId : Int) :
    walkNames web op titles start.id contId = some (idOf (start.listing.firsts titles)) := by
  induction titles generalizing start contId with
  | nil => exact absurd rfl hne
  | cons title titles ih =>
    obtain ⟨hsmall, hrest⟩ := hids
    rw [walkNames, getNextDirId_eq h hstart hsmall, Option.bind_eq_bind, Option.bind_some]
    cases hfound : start.listing.objects.find? (·.title = title) with
    | none =>
      have hfirsts : start.listing.firsts (title :: titles) = none := by
        cases titles <;> simp [Children.firsts, hfound]
      rw [hfirsts]
      rfl
    | some o =>
      have ho : o ∈ dir.objects := ContentDirectory.mem_of_listing hstart (List.mem_of_find?_eq_some hfound)
      have hid : ¬ idOf (some o) < 0 := Int.not_lt.2 (Int.natCast_nonneg o.id)
      rw [if_neg hid]
      change walkNames web op titles o.id o.id = _
      by_cases htitles : titles = []
      · subst htitles
        rw [Children.firsts, hfound]
        rfl
      · rw [ih htitles ho (hrest o hfound), firsts_cons _ _ htitles, hfound, Option.bind_some]

/-- The walk throws at an id that is no `int`. -/
theorem walkNames_none (h : Browses web op.mControlUrl dir) {titles : List Str} {start : DirObject}
    (hstart : start ∈ dir.objects) (hids : ¬ start.listing.IntIds titles) (contId : Int) :
    walkNames web op titles start.id contId = none := by
  induction titles generalizing start contId with
  | nil => exact absurd trivial hids
  | cons title titles ih =>
    rw [walkNames]
    by_cases hsmall : ∀ o ∈ start.listing.objects, o.id < 2 ^ 31
    · rw [getNextDirId_eq h hstart hsmall, Option.bind_eq_bind, Option.bind_some]
      cases hfound : start.listing.objects.find? (·.title = title) with
      | none => exact absurd ⟨hsmall, fun o ho => absurd (hfound.symm.trans ho) nofun⟩ hids
      | some o =>
        have ho : o ∈ dir.objects := ContentDirectory.mem_of_listing hstart (List.mem_of_find?_eq_some hfound)
        have hid : ¬ idOf (some o) < 0 := Int.not_lt.2 (Int.natCast_nonneg o.id)
        rw [if_neg hid]
        refine ih ho (fun hrest => hids ⟨hsmall, fun o' ho' => ?_⟩) _
        obtain rfl := Option.some.inj (hfound.symm.trans ho')
        exact hrest
    · rw [getNextDirId_none h hstart hsmall]
      rfl

end Walk

/-! ## What is resolved -/

/-- The result is the id of a container the titles lead to, and -1 where they lead to none. -/
def Resolves (dir : ContentDirectory) (titles : List Str) (result : Option Int) : Prop :=
  ∃ id, result = some id ∧ ((∃ c, dir.root.Chain titles c) → ∃ c : Nat, id = c ∧ dir.root.Chain titles c) ∧
    ((¬ ∃ c, dir.root.Chain titles c) → id = -1)

/-- The ids that are listed on the way are in the range of an `int`, and the first
objects lead to a container, or nowhere and there is no container to lead to. -/
structure FirstsLead (dir : ContentDirectory) (titles : List Str) : Prop where
  ids : dir.root.IntIds titles
  container : ∀ o, dir.root.firsts titles = some o → o.children.isSome
  nowhere : dir.root.firsts titles = none → ¬ ∃ c, dir.root.Chain titles c

theorem resolves_firsts_iff (dir : ContentDirectory) (titles : List Str) :
    Resolves dir titles (some (idOf (dir.root.firsts titles))) ↔
      (∀ o, dir.root.firsts titles = some o → o.children.isSome) ∧
        (dir.root.firsts titles = none → ¬ ∃ c, dir.root.Chain titles c) := by
  constructor
  · rintro ⟨id, hid, hchain, hnone⟩
    obtain rfl := Option.some.inj hid
    refine ⟨fun o ho => ?_, fun ho hc => ?_⟩
    · by_cases hc : ∃ c, dir.root.Chain titles c
      · -- a container with the id of an object is this object
        obtain ⟨c, hidc, hc⟩ := hchain hc
        obtain ⟨o', ho', hcont, rfl⟩ := Children.Chain.mem dir.root_mem hc
        rw [ho] at hidc
        have heq : o = o' := ContentDirectory.eq_of_id (Children.firsts_mem dir.root_mem ho) ho' (Int.ofNat.inj hidc)
        rwa [heq]
      · have hneg := hnone hc
        rw [ho] at hneg
        exact absurd hneg (by simp [idOf])
    · obtain ⟨c, hidc, -⟩ := hchain hc
      rw [ho] at hidc
      exact absurd hidc (by simp [idOf])
  · rintro ⟨hcont, hnowhere⟩
    refine ⟨_, rfl, ?_⟩
    cases ho : dir.root.firsts titles with
    | none => exact ⟨fun hc => absurd hc (hnowhere ho), fun _ => rfl⟩
    | some o =>
      have hc := Children.chain_of_firsts ho (hcont o ho)
      exact ⟨fun _ => ⟨o.id, rfl, hc⟩, fun h => absurd ⟨_, hc⟩ h⟩

theorem splitPath_join {titles : List Str} (hne : titles ≠ []) (htitles : ∀ t ∈ titles, t ≠ [] ∧ '/' ∉ t) :
    splitPath ('/' :: Joined.join '/' titles) = (titles, true) := by
  have hrest (titles : List Str) (hne : titles ≠ []) (htitles : ∀ t ∈ titles, t ≠ [] ∧ '/' ∉ t) (names : List Str) :
      splitRest (Joined.join '/' titles) names = (names ++ titles, true) := by
    induction titles generalizing names with
    | nil => exact absurd rfl hne
    | cons t titles ih =>
      obtain ⟨ht, htitles⟩ := List.forall_mem_cons.1 htitles
      by_cases hnil : titles = []
      · rw [hnil, Joined.join_singleton, splitRest_word ht.2 ht.1]
      · rw [Joined.join_cons hnil, splitRest_word_append ht.2 ht.1, ih hnil htitles, List.append_assoc]
        rfl
  rw [splitPath_cons]
  exact hrest titles hne htitles []

section Served
variable {web : Web} {url : Str} {dir : ContentDirectory} {titles : List Str}

/-- What the walk from the root ends with is the result. -/
theorem getContainerId_eq (hserves : Serves web url dir) (hne : titles ≠ []) (htitles : ∀ t ∈ titles, t ≠ [] ∧ '/' ∉ t)
    (op : UpnpOperation) :
    ∃ mControlUrl, Browses web mControlUrl dir ∧ (getContainerId web url ('/' :: Joined.join '/' titles) op).2 =
      walkNames web ⟨titles, mControlUrl⟩ titles (0 : Nat) (-1) := by
  obtain ⟨temp, controlUrl, hsend, hurl, hbrowses⟩ := hserves
  refine ⟨NetworkProvider.beforeLastSlash url ++ controlUrl, hbrowses, ?_⟩
  unfold getContainerId
  rw [hsend]
  dsimp only
  rw [hurl, splitPath_join hne htitles]
  rfl

theorem getContainerId_of_ids (hserves : Serves web url dir) (hne : titles ≠ []) (htitles : ∀ t ∈ titles, t ≠ [] ∧ '/' ∉ t)
    (hids : dir.root.IntIds titles) (op : UpnpOperation) :
    (getContainerId web url ('/' :: Joined.join '/' titles) op).2 = some (idOf (dir.root.firsts titles)) := by
  obtain ⟨mControlUrl, hbrowses, hresult⟩ := getContainerId_eq hserves hne htitles op
  rw [hresult]
  exact walkNames_eq hbrowses hne dir.root_mem hids (-1)

/-- For every path of components that are not empty, the id of a container they lead to
is returned, and -1 if there is none, exactly when the first objects with the titles lead there. -/
theorem container_resolved_iff (hserves : Serves web url dir) (hne : titles ≠ []) (htitles : ∀ t ∈ titles, t ≠ [] ∧ '/' ∉ t)
    (op : UpnpOperation) :
    Resolves dir titles (getContainerId web url ('/' :: Joined.join '/' titles) op).2 ↔ FirstsLead dir titles := by
  by_cases hids : dir.root.IntIds titles
  · rw [getContainerId_of_ids hserves hne htitles hids]
    exact (resolves_firsts_iff dir titles).trans ⟨fun h => ⟨hids, h.1, h.2⟩, fun h => ⟨h.container, h.nowhere⟩⟩
  · obtain ⟨mControlUrl, hbrowses, hresult⟩ := getContainerId_eq hserves hne htitles op
    have hwalk : walkNames web ⟨titles, mControlUrl⟩ titles (0 : Nat) (-1) = none :=
      walkNames_none hbrowses dir.root_mem hids (-1)
    rw [hresult, hwalk]
    exact iff_of_false (fun ⟨id, h, _⟩ => absurd h nofun) fun h => hids h.ids

end Served

/-! ## A server at home -/

section Home
open XMLHandler

def homeUrl : Str := "http://tv/description.xml".toList

def homeDescription : String :=
  "<root><service><serviceType>urn:schemas-upnp-org:service:ContentDirectory:1</serviceType>" ++
    "<controlURL>/ctl</controlURL></service></root>"

def homeTree : Tree := .element "root".toList [] (service contentDirectory "/ctl" .null) .null

def homeControlUrl : Str := "http://tv/ctl".toList

def emptyDidl : String := "<DIDL-Lite></DIDL-Lite>"

def emptyResult : String := "<Result>&lt;DIDL-Lite&gt;&lt;/DIDL-Lite&gt;</Result>"

def homeDocs (rootDidl rootResult : String) (rootTree : Tree) : List (String × Tree) :=
  [(homeDescription, homeTree), (emptyResult, textElement "Result" emptyDidl .null), (emptyDidl, didl .null),
    (rootResult, textElement "Result" rootDidl .null), (rootDidl, rootTree)]

/-- A server that lists what a text says for the root, and nothing for the objects in it. -/
def Web.home (rootDidl rootResult : String) (rootTree : Tree) : Web where
  send r :=
    if r = description homeUrl then some homeDescription.toList
    else if r = browse homeControlUrl 0 then some rootResult.toList
    else some emptyResult.toList
  xmlReadDoc text := ((homeDocs rootDidl rootResult rootTree).lookup (String.ofList text)).getD .null

/-- An item, and behind it a container with the same title. -/
def itemDirectory : ContentDirectory := ⟨.item 1 "Music".toList (.container 2 "Music".toList .nil .nil), by decide⟩

def itemDidl : String :=
  "<DIDL-Lite><item id=\"1\" parentID=\"0\"><title>Music</title></item>" ++
    "<container id=\"2\" parentID=\"0\"><title>Music</title></container></DIDL-Lite>"

def itemResult : String :=
  "<Result>&lt;DIDL-Lite&gt;&lt;item id=\"1\" parentID=\"0\"&gt;&lt;title&gt;Music&lt;/title&gt;&lt;/item&gt;" ++
    "&lt;container id=\"2\" parentID=\"0\"&gt;&lt;title&gt;Music&lt;/title&gt;&lt;/container&gt;&lt;/DIDL-Lite&gt;</Result>"

def itemTree : Tree := didl (answered "item" "1" "0" "Music" (answered "container" "2" "0" "Music" .null))

def itemHome : Web := .home itemDidl itemResult itemTree

/-- The container alone. -/
def musicDirectory : ContentDirectory := ⟨.container 1 "Music".toList .nil .nil, by decide⟩

def musicDidl : String := "<DIDL-Lite><container id=\"1\" parentID=\"0\"><title>Music</title></container></DIDL-Lite>"

def musicResult : String :=
  "<Result>&lt;DIDL-Lite&gt;&lt;container id=\"1\" parentID=\"0\"&gt;&lt;title&gt;Music&lt;/title&gt;" ++
    "&lt;/container&gt;&lt;/DIDL-Lite&gt;</Result>"

def musicTree : Tree := didl (answered "container" "1" "0" "Music" .null)

def musicHome : Web := .home musicDidl musicResult musicTree

theorem soapResult_textElement (text : String) : SoapResult (textElement "Result" text .null) text.toList where
  names := by
    intro i hi
    rcases List.mem_cons.1 hi with rfl | hi
    · exact Option.some_ne_none _
    · obtain rfl := List.mem_singleton.1 hi
      exact Option.some_ne_none _
  result := by
    have hcontent : (Tree.leaf .text text.toList .null).content = text.toList := List.append_nil _
    rw [← hcontent]
    rfl

theorem lookup_of_nodup {docs : List (String × Tree)} (hdocs : (docs.map Prod.fst).Nodup) {text : String} {t : Tree}
    (hmem : (text, t) ∈ docs) : docs.lookup text = some t := by
  induction docs with
  | nil => cases hmem
  | cons d docs ih =>
    obtain ⟨hd, hdocs⟩ := List.nodup_cons.1 hdocs
    rcases List.mem_cons.1 hmem with rfl | hmem
    · exact List.lookup_cons_self
    · have hne : (text == d.1) = false := beq_false_of_ne fun heq => hd (List.mem_map.2 ⟨_, hmem, heq⟩)
      rw [List.lookup_cons, hne]
      exact ih hdocs hmem

theorem answers_nothing (parentID : Nat) : Answers parentID .nil (didl .null) where
  names := by simp [didl, Tree.items, Item.element]
  objects := .nil

theorem argument_inj {name : String} {text text' : Str} (h : CurlClient.argument name text = CurlClient.argument name text') :
    text = text' := by
  have htail := (List.cons.inj (List.append_cancel_left h)).2
  exact List.append_cancel_right (List.append_cancel_right (List.append_cancel_right htail))

/-- Requests for objects whose ids are written differently differ. -/
theorem browse_ne {a b : Int} (h : toText a ≠ toText b) (url : Str) : browse url a ≠ browse url b := by
  intro heq
  have hbody : CurlClient.setUpnpXmlData a _ _ 0 0 _ = CurlClient.setUpnpXmlData b _ _ 0 0 _ :=
    congrArg CurlRequest.requestBody heq
  unfold CurlClient.setUpnpXmlData at hbody
  have hargs := List.append_cancel_left (List.append_cancel_right hbody)
  have harg := List.append_cancel_right (List.append_cancel_right (List.append_cancel_right
    (List.append_cancel_right (List.append_cancel_right hargs))))
  exact h (argument_inj harg)

theorem browse_ne_description (id : Int) : browse homeControlUrl id ≠ description homeUrl := by
  intro heq
  have hurl : homeControlUrl = homeUrl := congrArg CurlRequest.url heq
  exact absurd hurl (by decide)

/-- A server at home serves a directory without containers in containers. -/
theorem serves_home {rootDidl rootResult : String} {rootTree : Tree} {dir : ContentDirectory}
    (hdocs : ((homeDocs rootDidl rootResult rootTree).map Prod.fst).Nodup) (hne : rootResult ≠ "")
    (hroot : Answers 0 dir.root rootTree)
    (hbelow : ∀ o ∈ dir.root.descendants, o.listing = .nil ∧ toText o.id ≠ toText 0) :
    Serves (.home rootDidl rootResult rootTree) homeUrl dir := by
  have hdescription : (Web.home rootDidl rootResult rootTree).send (description homeUrl) = some homeDescription.toList := by
    dsimp only [Web.home]
    rw [if_pos rfl]
  have hsend (id : Int) : (Web.home rootDidl rootResult rootTree).send (browse homeControlUrl id) =
      if browse homeControlUrl id = browse homeControlUrl 0 then some rootResult.toList else some emptyResult.toList := by
    dsimp only [Web.home]
    rw [if_neg (browse_ne_description id)]
  have hread {text : String} {t : Tree} (hmem : (text, t) ∈ homeDocs rootDidl rootResult rootTree) :
      (Web.home rootDidl rootResult rootTree).xmlReadDoc text.toList = t := by
    dsimp only [Web.home]
    rw [String.ofList_toList, lookup_of_nodup hdocs hmem]
    rfl
  have hcontrol : getValueUnderSameParent homeTree "controlURL".toList "serviceType".toList
      "service:ContentDirectory:1".toList = some "/ctl".toList := rfl
  refine ⟨homeDescription.toList, "/ctl".toList, hdescription, ?_, ?_⟩
  · rw [hread List.mem_cons_self]
    exact hcontrol
  · intro o ho
    change ∃ resXml result, (Web.home rootDidl rootResult rootTree).send (browse homeControlUrl o.id) = _ ∧ _
    rw [hsend]
    rcases List.mem_cons.1 ho with rfl | ho
    · have hid : browse homeControlUrl ((0 : Nat) : Int) = browse homeControlUrl 0 := congrArg _ Int.natCast_zero
      refine ⟨rootResult.toList, rootDidl.toList, if_pos hid, by simpa using hne, ?_, ?_⟩
      · rw [hread (t := textElement "Result" rootDidl .null) (by simp [homeDocs])]
        exact soapResult_textElement rootDidl
      · rw [hread (t := rootTree) (by simp [homeDocs])]
        exact hroot
    · obtain ⟨hlisting, hid⟩ := hbelow o ho
      refine ⟨emptyResult.toList, emptyDidl.toList, if_neg (browse_ne hid _), by decide, ?_, ?_⟩
      · rw [hread (t := textElement "Result" emptyDidl .null) (by simp [homeDocs])]
        exact soapResult_textElement emptyDidl
      · rw [hread (t := didl .null) (by simp [homeDocs]), hlisting]
        exact answers_nothing o.id

theorem serves_music : Serves musicHome homeUrl musicDirectory := by
  refine serves_home (by decide) (by decide) ⟨by decide, ?_⟩ ?_
  · refine .cons ⟨rfl, rfl, rfl, by decide, by decide, rfl⟩ .nil
  · intro o ho
    obtain rfl := List.mem_singleton.1 ho
    exact ⟨rfl, by decide⟩

theorem serves_items : Serves itemHome homeUrl itemDirectory := by
  refine serves_home (by decide) (by decide) ⟨by decide +kernel, ?_⟩ ?_
  · refine .cons ⟨rfl, rfl, rfl, by decide, by decide, rfl⟩ (.cons ⟨rfl, rfl, rfl, by decide, by decide, rfl⟩ .nil)
  · intro o ho
    rcases List.mem_cons.1 ho with rfl | ho
    · exact ⟨rfl, by decide⟩
    · obtain rfl := List.mem_singleton.1 ho
      exact ⟨rfl, by decide⟩

/-- The container is found. -/
theorem music_resolved :
    Serves musicHome homeUrl musicDirectory ∧
      Resolves musicDirectory ["Music".toList]
        (getContainerId musicHome homeUrl ('/' :: Joined.join '/' ["Music".toList]) .init).2 := by
  refine ⟨serves_music, (container_resolved_iff serves_music (by decide) (by decide) _).2 ⟨?_, ?_, ?_⟩⟩
  · exact ⟨by decide, fun _ _ => trivial⟩
  · intro o ho
    obtain rfl := Option.some.inj ho
    rfl
  · intro hnone
    exact absurd hnone nofun

/-- The item in front of the container is taken for it. -/
theorem item_in_front_resolved :
    Serves itemHome homeUrl itemDirectory ∧ itemDirectory.root.Chain ["Music".toList] 2 ∧
      ¬ itemDirectory.root.Chain ["Music".toList] 1 ∧
      (getContainerId itemHome homeUrl ('/' :: Joined.join '/' ["Music".toList]) .init).2 = some 1 ∧
      ¬ Resolves itemDirectory ["Music".toList]
        (getContainerId itemHome homeUrl ('/' :: Joined.join '/' ["Music".toList]) .init).2 := by
  have hchain : itemDirectory.root.Chain ["Music".toList] 2 :=
    .last (o := ⟨2, "Music".toList, some .nil⟩) (by decide) rfl
  have hitem : ¬ itemDirectory.root.Chain ["Music".toList] 1 := by
    intro h
    obtain ⟨o, ho, hcont, hid⟩ := Children.Chain.mem itemDirectory.root_mem h
    obtain rfl : o = ⟨1, "Music".toList, none⟩ :=
      ContentDirectory.eq_of_id ho (List.mem_cons_of_mem _ List.mem_cons_self) hid
    cases hcont
  have hids : itemDirectory.root.IntIds ["Music".toList] := ⟨by decide, fun _ _ => trivial⟩
  have hresult : (getContainerId itemHome homeUrl ('/' :: Joined.join '/' ["Music".toList]) .init).2 = some 1 :=
    getContainerId_of_ids serves_items (by decide) (by decide) hids _
  refine ⟨serves_items, hchain, hitem, hresult, ?_⟩
  rintro ⟨id, hid, hleads, -⟩
  obtain ⟨c, rfl, hc⟩ := hleads ⟨2, hchain⟩
  obtain rfl : 1 = c := Int.ofNat.inj (Option.some.inj (hresult.symm.trans hid))
  exact hitem hc

end Home

end StorageAccess
