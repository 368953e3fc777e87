import StorageAccess.Proofs.LookUps
import StorageAccess.Proofs.Utility
/-!
# Listing a container

One record is pushed for every node named `container` or `item`, and its data are
read from the front of its attributes and of its children. The listing is exact
when all these nodes are entries of the container and nothing that counts is
behind the front.
-/

open Posix Xml

namespace StorageAccess

namespace XMLHandler

/-! ## What the listing is for -/

/-- The value of an attribute, empty if there is none. -/
def attrText (properties : List Attr) (key : Str) : Str := (values key properties).getLastD []

/-- The text of the last element of a list with the name, empty if there is none. -/
def lastText (l : List Item) (key : Str) : Str := (texts key l).getLastD []

/-- An entry of the container. -/
def EntryOf (parentID : Int) (i : Item) : Prop :=
  i.isElement = true ∧ isEntry i = true ∧ attrText i.properties "parentID".toList = toText parentID

instance (parentID : Int) (i : Item) : Decidable (EntryOf parentID i) := inferInstanceAs (Decidable (_ ∧ _))

/-- A number shows a text as it stands; without a text it is the default. -/
def Shows (default : Int) (val : Str) (n : Int) : Prop := if val = [] then n = default else val = toText n

instance (default : Int) (val : Str) (n : Int) : Decidable (Shows default val n) := by unfold Shows; infer_instance

/-- The record has the data of the node. -/
structure Describes (i : Item) (d : DirDetails) : Prop where
  id : Shows (-1) (attrText i.properties "id".toList) d.id
  restricted : Shows (-1) (attrText i.properties "restricted".toList) d.restricted
  childCount : Shows 0 (attrText i.properties "childCount".toList) d.childCount
  title : d.title = lastText i.children.siblings "title".toList
  className : d.className = lastText i.children.siblings "class".toList
  resUrl : d.resUrl = lastText i.children.siblings "res".toList

/-- There is a listing, and it has one record for each entry of the container, in order. -/
def ListedExactly (t : Tree) (parentID : Int) : Prop :=
  ∃ ds, getCurDirDetails t parentID = some ds ∧ List.Forall₂ Describes (t.items.filter (EntryOf parentID ·)) ds

/-! ## Numbers -/

theorem not_isSpace_of_isDigit {c : Char} (h : c.isDigit = true) : isSpace c = false := by
  have hspaces : ([' ', '\t', '\n', Char.ofNat 11, Char.ofNat 12, '\r'].any Char.isDigit) = false := by decide
  refine Bool.eq_false_iff.2 fun hs => ?_
  exact List.any_eq_false.1 hspaces c (by simpa [isSpace] using hs) h

/-- Digits behind a sign are read whole. -/
theorem stoi_of_sign {s : Str} {factor : Int} {n : Nat} (hs : sign (s.dropWhile isSpace) = (factor, Nat.toDigits 10 n)) :
    stoi s = if factor * n < -2 ^ 31 ∨ 2 ^ 31 ≤ factor * n then none else some (factor * n) := by
  have hdigits : (Nat.toDigits 10 n).takeWhile Char.isDigit = Nat.toDigits 10 n :=
    List.takeWhile_eq_self_iff.2 fun c hc => isDigit_of_mem_toDigits hc
  have hvalue : Nat.ofDigitChars 10 (Nat.toDigits 10 n) 0 = n := Nat.ofDigitChars_toDigits (by decide) (by decide)
  simp [stoi, hs, hdigits, hvalue]

theorem dropWhile_isSpace_cons {c : Char} (hc : isSpace c = false) (s : Str) : (c :: s).dropWhile isSpace = c :: s := by
  simp [hc]

theorem stoi_toText (n : Int) : stoi (toText n) = if n < -2 ^ 31 ∨ 2 ^ 31 ≤ n then none else some n := by
  unfold toText
  split
  case isTrue hn =>
    have hsign : sign (('-' :: Nat.toDigits 10 n.natAbs).dropWhile isSpace) = (-1, Nat.toDigits 10 n.natAbs) := by
      rw [dropWhile_isSpace_cons (by decide)]
      rfl
    have habs : -1 * (n.natAbs : Int) = n := by omega
    rw [stoi_of_sign hsign, habs]
  case isFalse hn =>
    have hsign : sign ((Nat.toDigits 10 n.natAbs).dropWhile isSpace) = (1, Nat.toDigits 10 n.natAbs) := by
      obtain ⟨c, s, hdigits⟩ := List.exists_cons_of_ne_nil (Nat.toDigits_ne_nil (n := n.natAbs) (b := 10))
      have hc : c.isDigit = true := isDigit_of_mem_toDigits (hdigits ▸ List.mem_cons_self)
      rw [hdigits, dropWhile_isSpace_cons (not_isSpace_of_isDigit hc)]
      unfold sign
      split
      case h_1 h => cases h; exact absurd hc (by decide)
      case h_2 h => cases h; exact absurd hc (by decide)
      case h_3 => rfl
    have habs : 1 * (n.natAbs : Int) = n := by omega
    rw [stoi_of_sign hsign, habs]

/-! ## The front of a node -/

/-- The attributes before the first one without a value. -/
def valued (i : Item) : List Attr := i.properties.takeWhile (·.value.isSome)

/-- The children before the first one that is no element. -/
def front (t : Tree) : List Item := t.siblings.takeWhile (·.isElement)

theorem getLastD_values_cons (k key val d : Str) (ps : List Attr) :
    (values k (⟨key, some val⟩ :: ps)).getLastD d = (values k ps).getLastD (if key = k then val else d) := by
  by_cases h : key = k
  · have hcons : values k (⟨key, some val⟩ :: ps) = val :: values k ps := by simp [values, h]
    rw [if_pos h, hcons, List.getLastD_cons]
  · have hcons : values k (⟨key, some val⟩ :: ps) = values k ps := by simp [values, h]
    rw [if_neg h, hcons]

theorem readAttributes_eq (properties : List Attr) (a : EntryAttributes) :
    readAttributes properties a =
      let read (key : String) := values key.toList (properties.takeWhile (·.value.isSome))
      ⟨(read "id").getLastD a.id, (read "parentID").getLastD a.pId, (read "restricted").getLastD a.rest,
        (read "childCount").getLastD a.chCount⟩ := by
  induction properties generalizing a with
  | nil => rfl
  | cons p properties ih =>
    obtain ⟨key, _ | val⟩ := p
    · rfl
    · have hfront : (⟨key, some val⟩ :: properties : List Attr).takeWhile (·.value.isSome) =
          ⟨key, some val⟩ :: properties.takeWhile (·.value.isSome) := rfl
      simp only [readAttributes, ih, hfront, getLastD_values_cons]
      by_cases hid : key = "id".toList
      · simp [hid]
      by_cases hpid : key = "parentID".toList
      · simp [hpid]
      by_cases hrest : key = "restricted".toList
      · simp [hrest]
      by_cases hcount : key = "childCount".toList
      · simp [hcount]
      simp only [if_neg hid, if_neg hpid, if_neg hrest, if_neg hcount]

theorem getLastD_texts_cons (k name d : Str) (properties : List Attr) (children : Tree) (l : List Item) :
    (texts k (.element name properties children :: l)).getLastD d =
      (texts k l).getLastD (if name = k then children.content else d) := by
  by_cases h : name = k
  · rw [if_pos h, texts, List.filter_cons_of_pos (by simp [Item.element, h]), List.map_cons, List.getLastD_cons]
    rfl
  · rw [if_neg h, texts, List.filter_cons_of_neg (by simp [Item.element, h])]
    rfl

theorem readChildren_eq (t : Tree) (d : DirDetails) :
    readChildren t d = { d with
      title := (texts "title".toList (front t)).getLastD d.title
      className := (texts "class".toList (front t)).getLastD d.className
      resUrl := (texts "res".toList (front t)).getLastD d.resUrl } := by
  induction t generalizing d with
  | null => rfl
  | leaf kind s next ih => rfl
  | element name properties children next ihc ihn =>
    have hfront : front (.element name properties children next) = .element name properties children :: front next := rfl
    simp only [readChildren, ihn, hfront, getLastD_texts_cons]
    by_cases htitle : name = "title".toList
    · simp [htitle]
    by_cases hclass : name = "class".toList
    · simp [hclass]
    by_cases hres : name = "res".toList
    · simp [hres]
    simp only [if_neg htitle, if_neg hclass, if_neg hres]

/-! ## One node -/

/-- The number read from the front is the one the whole text shows. -/
def NumberRead (default : Int) (read val : Str) : Prop := ∃ n, readNumber read default = some n ∧ Shows default val n

/-- What is behind the front says nothing else. -/
structure FrontAgrees (i : Item) : Prop where
  id : NumberRead (-1) (attrText (valued i) "id".toList) (attrText i.properties "id".toList)
  restricted : NumberRead (-1) (attrText (valued i) "restricted".toList) (attrText i.properties "restricted".toList)
  childCount : NumberRead 0 (attrText (valued i) "childCount".toList) (attrText i.properties "childCount".toList)
  title : lastText (front i.children) "title".toList = lastText i.children.siblings "title".toList
  className : lastText (front i.children) "class".toList = lastText i.children.siblings "class".toList
  resUrl : lastText (front i.children) "res".toList = lastText i.children.siblings "res".toList

/-- An entry of the container whose record is right: its parent is read and nothing
that counts is behind the front, or it has no data. -/
structure ReadRight (parentID : Int) (i : Item) : Prop where
  entry : EntryOf parentID i
  read : if attrText (valued i) "parentID".toList = toText parentID then FrontAgrees i else Describes i {}

theorem entryDetails_iff (parentID : Int) (i : Item) :
    (∃ d, entryDetails parentID i = some d ∧ Describes i d) ↔
      if attrText (valued i) "parentID".toList = toText parentID then FrontAgrees i else Describes i {} := by
  have hread : readAttributes i.properties {} =
      ⟨attrText (valued i) "id".toList, attrText (valued i) "parentID".toList, attrText (valued i) "restricted".toList,
        attrText (valued i) "childCount".toList⟩ := readAttributes_eq i.properties {}
  unfold entryDetails
  rw [hread]
  dsimp only
  split
  case isFalse => simp
  case isTrue =>
    constructor
    · rintro ⟨d, hd, hi⟩
      obtain ⟨id, hid, hd⟩ := Option.bind_eq_some_iff.1 hd
      obtain ⟨restricted, hrest, hd⟩ := Option.bind_eq_some_iff.1 hd
      obtain ⟨childCount, hcount, hd⟩ := Option.bind_eq_some_iff.1 hd
      rw [readChildren_eq, Option.some_inj] at hd
      subst hd
      exact ⟨⟨id, hid, hi.id⟩, ⟨restricted, hrest, hi.restricted⟩, ⟨childCount, hcount, hi.childCount⟩, hi.title,
        hi.className, hi.resUrl⟩
    · intro h
      obtain ⟨id, hid, hids⟩ := h.id
      obtain ⟨restricted, hrest, hrests⟩ := h.restricted
      obtain ⟨childCount, hcount, hcounts⟩ := h.childCount
      refine ⟨readChildren i.children { id, restricted, childCount }, ?_, ?_⟩
      · rw [hid, hrest, hcount]
        rfl
      · rw [readChildren_eq]
        exact ⟨hids, hrests, hcounts, h.title, h.className, h.resUrl⟩

/-! ## All nodes -/

theorem getCurDirElementDetails_eq (parentID : Int) (t : Tree) (ds : List DirDetails) :
    getCurDirElementDetails parentID t ds = t.items.foldlM (fun ds i => pushEntry parentID i ds) ds := by
  induction t generalizing ds with
  | null => rfl
  | element name properties children next ihc ihn =>
    simp only [getCurDirElementDetails, Tree.items, List.foldlM_cons, List.foldlM_append, ihc, ihn]
  | leaf kind s next ih => simp only [getCurDirElementDetails, Tree.items, List.foldlM_cons, ih]

/-- The list is extended by one record for each node named `container` or `item`, unless a node has no name. -/
theorem pushEntries_iff (parentID : Int) (items : List Item) (ds ds' : List DirDetails) :
    items.foldlM (fun ds i => pushEntry parentID i ds) ds = some ds' ↔ (∀ i ∈ items, i.name ≠ none) ∧
      ∃ es, List.Forall₂ (fun i e => entryDetails parentID i = some e) (items.filter isEntry) es ∧ ds' = ds ++ es := by
  induction items generalizing ds with
  | nil => simp [eq_comm]
  | cons i items ih =>
    rw [List.foldlM_cons, List.forall_mem_cons]
    cases hname : i.name with
    | none => simp [pushEntry, hname]
    | some name =>
      by_cases hi : isEntry i = true
      · rw [List.filter_cons_of_pos hi]
        cases hd : entryDetails parentID i with
        | none => simp [pushEntry, hname, hi, hd, List.forall₂_cons_left_iff]
        | some d =>
          have hpush : pushEntry parentID i ds = some (ds ++ [d]) := by simp [pushEntry, hname, hi, hd]
          rw [hpush]
          simp [ih, List.forall₂_cons_left_iff, hd]
      · have hpush : pushEntry parentID i ds = some ds := by simp [pushEntry, hname, hi]
        rw [hpush, List.filter_cons_of_neg hi]
        simp [ih]

theorem getCurDirDetails_iff (t : Tree) (parentID : Int) (ds : List DirDetails) :
    getCurDirDetails t parentID = some ds ↔ (∀ i ∈ t.items, i.name ≠ none) ∧
      List.Forall₂ (fun i e => entryDetails parentID i = some e) (t.items.filter isEntry) ds := by
  unfold getCurDirDetails
  rw [getCurDirElementDetails_eq, pushEntries_iff]
  simp

theorem forall₂_and {α β : Type} {R S : α → β → Prop} {l : List α} {l' : List β} :
    List.Forall₂ R l l' → List.Forall₂ S l l' → List.Forall₂ (fun a b => R a b ∧ S a b) l l' := by
  intro h h'
  induction h with
  | nil => exact .nil
  | cons hab hl ih =>
    cases h' with
    | cons hab' hl' => exact .cons ⟨hab, hab'⟩ (ih hl')

theorem exists_forall₂_iff {α β : Type} {R : α → β → Prop} {l : List α} :
    (∃ l', List.Forall₂ R l l') ↔ ∀ a ∈ l, ∃ b, R a b := by
  induction l with
  | nil => exact iff_of_true ⟨[], .nil⟩ nofun
  | cons a l ih =>
    rw [List.forall_mem_cons, ← ih]
    constructor
    · rintro ⟨_, h⟩
      cases h with
      | cons hab hl => exact ⟨⟨_, hab⟩, _, hl⟩
    · rintro ⟨⟨b, hab⟩, l', hl⟩
      exact ⟨b :: l', .cons hab hl⟩

/-- The entries of the container are nodes that are pushed, and there are as many of
them only when they are all. -/
theorem entries_of_length {t : Tree} {parentID : Int}
    (h : (t.items.filter isEntry).length = (t.items.filter (EntryOf parentID ·)).length) :
    t.items.filter (EntryOf parentID ·) = t.items.filter isEntry := by
  have hsub : (t.items.filter (EntryOf parentID ·)).Sublist (t.items.filter isEntry) := by
    apply List.monotone_filter_right
    intro i hi
    exact (of_decide_eq_true hi).2.1
  exact hsub.eq_of_length h.symm

end XMLHandler

open XMLHandler in
/-- The listing of a container is exact exactly when every node has a name and every
node named `container` or `item` is an entry of the container that is read right. -/
theorem listing_exact_iff (t : Tree) (parentID : Int) :
    ListedExactly t parentID ↔
      (∀ i ∈ t.items, i.name ≠ none) ∧ ∀ i ∈ t.items, isEntry i = true → ReadRight parentID i := by
  unfold ListedExactly
  simp only [getCurDirDetails_iff]
  constructor
  · rintro ⟨ds, ⟨hnames, hpushed⟩, hdescribed⟩
    have hentries := entries_of_length (hpushed.length_eq.trans hdescribed.length_eq.symm)
    rw [hentries] at hdescribed
    refine ⟨hnames, fun i hi he => ?_⟩
    have hmem : i ∈ t.items.filter isEntry := List.mem_filter.2 ⟨hi, he⟩
    refine ⟨?_, (entryDetails_iff parentID i).1 ?_⟩
    · rw [← hentries] at hmem
      exact of_decide_eq_true (List.mem_filter.1 hmem).2
    · exact exists_forall₂_iff.1 ⟨ds, forall₂_and hpushed hdescribed⟩ i hmem
  · rintro ⟨hnames, hright⟩
    have hentries : t.items.filter (EntryOf parentID ·) = t.items.filter isEntry := by
      apply List.filter_congr
      intro i hi
      by_cases he : isEntry i = true
      · rw [he]
        exact decide_eq_true (hright i hi he).entry
      · rw [Bool.of_not_eq_true he]
        exact decide_eq_false fun h => he h.2.1
    obtain ⟨ds, hds⟩ := exists_forall₂_iff.2 fun i hi =>
      (entryDetails_iff parentID i).2 (hright i (List.mem_filter.1 hi).1 (List.mem_filter.1 hi).2).read
    rw [hentries]
    exact ⟨ds, ⟨hnames, hds.imp fun _ _ h => h.1⟩, hds.imp fun _ _ h => h.2⟩

namespace XMLHandler

/-- An entry as a server answers it. -/
def answered (kind id parentID title : String) (next : Tree) : Tree :=
  .element kind.toList [⟨"id".toList, some id.toList⟩, ⟨"parentID".toList, some parentID.toList⟩] (textElement "title" title .null)
    next

def didl (entries : Tree) : Tree := .element "DIDL-Lite".toList [] entries .null

end XMLHandler

open XMLHandler in
/-- An item of another container is listed without its data, an id with another sign
in it is cut there, and one that begins with a letter throws. -/
theorem listings_not_exact :
    (getCurDirDetails (didl (answered "item" "7" "5" "a.mp3" .null)) 0 = some [{}] ∧
      ¬ ListedExactly (didl (answered "item" "7" "5" "a.mp3" .null)) 0) ∧
    (getCurDirDetails (didl (answered "container" "64$0" "0" "Music" .null)) 0 =
        some [{ id := 64, title := "Music".toList }] ∧
      ¬ ListedExactly (didl (answered "container" "64$0" "0" "Music" .null)) 0) ∧
    ¬ ListedExactly (didl (answered "container" "A1" "0" "Music" .null)) 0 := by
  have hforeign : getCurDirDetails (didl (answered "item" "7" "5" "a.mp3" .null)) 0 = some [{}] := rfl
  have hcut : getCurDirDetails (didl (answered "container" "64$0" "0" "Music" .null)) 0 =
      some [{ id := 64, title := "Music".toList }] := rfl
  have hthrows : getCurDirDetails (didl (answered "container" "A1" "0" "Music" .null)) 0 = none := rfl
  refine ⟨⟨hforeign, fun h => ?_⟩, ⟨hcut, fun h => ?_⟩, fun h => ?_⟩
  · obtain ⟨ds, hds, hdescribed⟩ := h
    obtain rfl := Option.some.inj (hforeign.symm.trans hds)
    have hlength := hdescribed.length_eq
    exact absurd hlength (by decide)
  · obtain ⟨ds, hds, hdescribed⟩ := h
    obtain rfl := Option.some.inj (hcut.symm.trans hds)
    have hentries : (didl (answered "container" "64$0" "0" "Music" .null)).items.filter (EntryOf 0 ·) =
        [.element "container".toList [⟨"id".toList, some "64$0".toList⟩, ⟨"parentID".toList, some "0".toList⟩]
          (textElement "title" "Music" .null)] := by rfl
    rw [hentries] at hdescribed
    obtain ⟨hdescribed, -⟩ := List.forall₂_cons.1 hdescribed
    exact absurd hdescribed.id (by decide +kernel)
  · obtain ⟨ds, hds, -⟩ := h
    exact absurd (hthrows.symm.trans hds) nofun

end StorageAccess
