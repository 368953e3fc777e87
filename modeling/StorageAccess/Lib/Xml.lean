import StorageAccess.Lib.Path
/-!
# Trees of a parsed XML document

The nodes are those of a document without a type declaration. A node is stored with
its children and its next siblings, as a parser links them, so that what follows a
node in document order is part of the term. `items` lists the nodes in document
order. In a `walk` an element that is picked ends its list of siblings only: the
walk goes on behind their parent, and a later pick overwrites the earlier one.
-/

open Posix (Str)

namespace Xml

/-- An attribute. Without a value the parser linked no text to it. -/
structure Attr where
  name : Str
  value : Option Str
  deriving DecidableEq, Repr

/-- The nodes without children. A CDATA section is the one that has no name. -/
inductive Leaf
  | text
  | cdata
  | comment
  | pi (target : Str)
  deriving DecidableEq, Repr

def Leaf.name : Leaf → Option Str
  | .text => some "text".toList
  | .cdata => none
  | .comment => some "comment".toList
  | .pi target => some target

/-- A node and what is linked to it: nothing, an element with its attributes, its first
child and its next sibling, or a node without children. -/
inductive Tree
  | null
  | element (name : Str) (properties : List Attr) (children next : Tree)
  | leaf (kind : Leaf) (content : Str) (next : Tree)
  deriving DecidableEq, Repr

/-- What can be read off one node. -/
structure Item where
  name : Option Str
  isElement : Bool
  properties : List Attr
  children : Tree

namespace Item

def element (name : Str) (properties : List Attr) (children : Tree) : Item := ⟨some name, true, properties, children⟩

def leaf (kind : Leaf) : Item := ⟨kind.name, false, [], .null⟩

end Item

namespace Tree

/-- The text below a node and its next siblings. -/
def content : Tree → Str
  | null => []
  | element _ _ children next => children.content ++ next.content
  | leaf .text s next => s ++ next.content
  | leaf .cdata s next => s ++ next.content
  | leaf .comment _ next => next.content
  | leaf (.pi _) _ next => next.content

/-- The nodes in document order. -/
def items : Tree → List Item
  | null => []
  | element name properties children next => .element name properties children :: (children.items ++ next.items)
  | leaf kind _ next => .leaf kind :: next.items

/-- A node and its next siblings. -/
def siblings : Tree → List Item
  | null => []
  | element name properties children next => .element name properties children :: next.siblings
  | leaf kind _ next => .leaf kind :: next.siblings

/-- The nodes in document order, without what is below or, in its list of siblings, behind an element that stops. -/
def reached (stops : Item → Bool) : Tree → List Item
  | null => []
  | element name properties children next =>
    let e := Item.element name properties children
    if stops e then [e] else e :: (children.reached stops ++ next.reached stops)
  | leaf kind _ next => .leaf kind :: next.reached stops

/-- Go through the nodes and keep what was picked last. There is nothing at a node without a name. -/
def walk {α : Type} (pick : Item → Option α) : Tree → α → Option α
  | null, res => some res
  | element name properties children next, res =>
    match pick (.element name properties children) with
    | some v => some v
    | none => (children.walk pick res).bind (next.walk pick)
  | leaf kind _ next, res => kind.name.bind fun _ => next.walk pick res

end Tree

/-- The texts of the elements of a list that have the name. -/
def texts (key : Str) (l : List Item) : List Str :=
  (l.filter fun i => i.isElement ∧ i.name = some key).map fun i => i.children.content

/-- The values of the attributes with the name. -/
def values (key : Str) (properties : List Attr) : List Str :=
  properties.filterMap fun p => if p.name = key then p.value else none

theorem texts_append (key : Str) (l l' : List Item) : texts key (l ++ l') = texts key l ++ texts key l' := by
  simp [texts]

theorem texts_items_leaf (key : Str) (kind : Leaf) (s : Str) (next : Tree) :
    texts key (Tree.leaf kind s next).items = texts key next.items := by
  simp [texts, Tree.items, Item.leaf]

theorem texts_items_element (key name : Str) (properties : List Attr) (children next : Tree) :
    texts key (Tree.element name properties children next).items =
      (if name = key then [children.content] else []) ++ (texts key children.items ++ texts key next.items) := by
  have hitems : (Tree.element name properties children next).items =
      [.element name properties children] ++ (children.items ++ next.items) := rfl
  rw [hitems, texts_append, texts_append]
  by_cases h : name = key <;> simp [texts, Item.element, h]

namespace Tree

/-! ## What a walk keeps -/

variable {α : Type} {pick : Item → Option α}

/-- The values picked from the nodes that are reached. -/
def picks (pick : Item → Option α) (t : Tree) : List α := (t.reached fun i => (pick i).isSome).filterMap pick

/-- Every node that is reached has a name. -/
def NamesReached (pick : Item → Option α) (t : Tree) : Prop := ∀ i ∈ t.reached fun i => (pick i).isSome, i.name ≠ none

section Element
variable {name : Str} {properties : List Attr} {children next : Tree}

theorem reached_of_pick {v : α} (hp : pick (.element name properties children) = some v) :
    (element name properties children next).reached (fun i => (pick i).isSome) = [.element name properties children] := by
  simp [reached, hp]

theorem reached_of_no_pick (hp : pick (.element name properties children) = none) :
    (element name properties children next).reached (fun i => (pick i).isSome) =
      .element name properties children ::
        (children.reached (fun i => (pick i).isSome) ++ next.reached fun i => (pick i).isSome) := by
  simp [reached, hp]

theorem picks_of_no_pick (hp : pick (.element name properties children) = none) :
    (element name properties children next).picks pick = children.picks pick ++ next.picks pick := by
  rw [picks, reached_of_no_pick hp, List.filterMap_cons_none hp, List.filterMap_append, picks, picks]

theorem namesReached_of_no_pick (hp : pick (.element name properties children) = none) :
    (element name properties children next).NamesReached pick ↔ children.NamesReached pick ∧ next.NamesReached pick := by
  have hname : (Item.element name properties children).name ≠ none := nofun
  rw [NamesReached, reached_of_no_pick hp, List.forall_mem_cons, List.forall_mem_append]
  exact and_iff_right hname

end Element

theorem picks_leaf (hleaf : ∀ kind, pick (.leaf kind) = none) (kind : Leaf) (s : Str) (next : Tree) :
    (leaf kind s next).picks pick = next.picks pick := List.filterMap_cons_none (hleaf kind)

theorem getLastD_append (l l' : List α) (a : α) : (l ++ l').getLastD a = l'.getLastD (l.getLastD a) := by
  simp [List.getLastD_eq_getLast?, List.getLast?_append]

/-- A walk over names ends with the last of the picks. -/
theorem walk_of_names (hleaf : ∀ kind, pick (.leaf kind) = none) {t : Tree} (ht : t.NamesReached pick) (res : α) :
    t.walk pick res = some ((t.picks pick).getLastD res) := by
  induction t generalizing res with
  | null => rfl
  | element name properties children next ihc ihn =>
    cases hp : pick (.element name properties children) with
    | some v => simp [walk, picks, reached_of_pick hp, hp]
    | none =>
      obtain ⟨hc, hn⟩ := (namesReached_of_no_pick hp).1 ht
      simp only [walk, hp]
      rw [ihc hc, Option.bind_some, ihn hn, picks_of_no_pick hp, getLastD_append]
  | leaf kind s next ih =>
    obtain ⟨hk, hn⟩ := List.forall_mem_cons.1 ht
    obtain ⟨n, hname⟩ := Option.ne_none_iff_exists'.1 hk
    have hkind : kind.name = some n := hname
    rw [walk, hkind, Option.bind_some, ih hn, picks_leaf hleaf]

/-- A walk that reaches a node without a name does not end. -/
theorem walk_of_no_name {t : Tree} (ht : ¬ t.NamesReached pick) (res : α) : t.walk pick res = none := by
  induction t generalizing res with
  | null => exact absurd nofun ht
  | element name properties children next ihc ihn =>
    cases hp : pick (.element name properties children) with
    | some v =>
      refine absurd (fun i hi => ?_) ht
      rw [reached_of_pick hp, List.mem_singleton] at hi
      rw [hi]
      exact nofun
    | none =>
      simp only [walk, hp]
      by_cases hc : children.NamesReached pick
      · have hn : ¬ next.NamesReached pick := fun hn => ht ((namesReached_of_no_pick hp).2 ⟨hc, hn⟩)
        cases children.walk pick res with
        | none => rfl
        | some r => exact ihn hn r
      · rw [ihc hc]
        rfl
  | leaf kind s next ih =>
    rw [walk]
    cases hk : kind.name with
    | none => rfl
    | some n =>
      refine ih (fun hn => ht ?_) res
      refine List.forall_mem_cons.2 ⟨?_, hn⟩
      exact Option.ne_none_iff_exists'.2 ⟨n, hk⟩

/-- The walk ends with a value exactly when it has only names before it, and the last pick is this value. -/
theorem walk_eq_some_iff (hleaf : ∀ kind, pick (.leaf kind) = none) {t : Tree} {res v : α} :
    t.walk pick res = some v ↔ t.NamesReached pick ∧ (t.picks pick).getLastD res = v := by
  by_cases ht : t.NamesReached pick
  · rw [walk_of_names hleaf ht, Option.some_inj]
    exact (and_iff_right ht).symm
  · rw [walk_of_no_name ht]
    exact iff_of_false nofun fun h => ht h.1

theorem reached_sublist (stops : Item → Bool) (t : Tree) : (t.reached stops).Sublist t.items := by
  induction t with
  | null => exact List.Sublist.refl _
  | element name properties children next ihc ihn =>
    simp only [reached]
    split
    · exact (List.nil_sublist _).cons_cons _
    · exact (ihc.append ihn).cons_cons _
  | leaf kind s next ih => exact ih.cons_cons _

/-- A tree with names everywhere has names wherever a walk gets. -/
theorem namesReached_of_names {t : Tree} (ht : ∀ i ∈ t.items, i.name ≠ none) : t.NamesReached pick := fun i hi =>
  ht i ((reached_sublist _ t).subset hi)

/-- The first pick of the whole tree is the first that is reached. -/
theorem findSome?_items (hleaf : ∀ kind, pick (.leaf kind) = none) (t : Tree) :
    t.items.findSome? pick = (t.picks pick).head? := by
  rw [picks, List.head?_filterMap]
  induction t with
  | null => rfl
  | element name properties children next ihc ihn =>
    cases hp : pick (.element name properties children) with
    | some v => simp [items, reached_of_pick hp, hp]
    | none => simp [items, reached_of_no_pick hp, hp, List.findSome?_append, ihc, ihn]
  | leaf kind s next ih => simp [items, reached, hleaf, ih]

/-- A single pick of the whole tree is what a walk ends with. -/
theorem walk_of_single (hleaf : ∀ kind, pick (.leaf kind) = none) {t : Tree} (ht : ∀ i ∈ t.items, i.name ≠ none) {v : α}
    (hv : t.items.filterMap pick = [v]) (res : α) : t.walk pick res = some v := by
  have hsub : (t.picks pick).Sublist [v] := hv ▸ (reached_sublist _ t).filterMap pick
  have hhead : (t.picks pick).head? = some v := by
    rw [← findSome?_items hleaf, ← List.head?_filterMap, hv]
    rfl
  have hpicks : t.picks pick = [v] := hsub.eq_of_length_le (by
    obtain ⟨l, hl⟩ := List.head?_eq_some_iff.1 hhead
    simp [hl])
  rw [walk_of_names hleaf (namesReached_of_names ht), hpicks]
  rfl

end Tree

end Xml
