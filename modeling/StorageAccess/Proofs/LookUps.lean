import StorageAccess.Model.XmlHandler
/-!
# Looking up a name

Both look-ups are walks that keep the last pick. The last pick is the first match
of the document when no match behind the first one is reached, or has another text.
-/

open Posix Xml

namespace StorageAccess

namespace XMLHandler

/-! ## What the look-ups are for -/

/-- The text of the first element with the name, or empty. -/
def firstText (t : Tree) (nodeName : Str) : Str :=
  match t.items.find? fun i => i.isElement ∧ i.name = some nodeName with
  | some i => i.children.content
  | none => []

/-- The text of the child with the name; of several children the last counts. -/
def childText (i : Item) (key : Str) : Option Str := (texts key i.children.siblings).getLast?

/-- The `nodeName` text of a service whose `matchNode` text contains the value, if it has one. -/
def serviceText (nodeName matchNode matchVal : Str) (i : Item) : Option Str :=
  if i.isElement ∧ i.name = some "service".toList then
    match childText i matchNode, childText i nodeName with
    | some matchData, some nodeData => if matchVal <:+: matchData ∧ nodeData ≠ [] then some nodeData else none
    | _, _ => none
  else none

/-- The text of the first such service, or empty. -/
def firstService (t : Tree) (nodeName matchNode matchVal : Str) : Str :=
  (t.items.findSome? (serviceText nodeName matchNode matchVal)).getD []

/-! ## What the walks pick -/

theorem elementMatch_leaf (nodeName : Str) (kind : Leaf) : elementMatch nodeName (.leaf kind) = none := if_neg nofun

theorem serviceMatch_leaf (nodeName matchNode matchVal : Str) (kind : Leaf) :
    serviceMatch nodeName matchNode matchVal (.leaf kind) = none := by
  unfold serviceMatch
  split
  · exact if_neg fun h => h.1 rfl
  · rfl

theorem serviceMatch_ne_nil {nodeName matchNode matchVal : Str} {i : Item} {v : Str}
    (h : serviceMatch nodeName matchNode matchVal i = some v) : v ≠ [] := by
  unfold serviceMatch at h
  split at h
  · dsimp only at h
    split at h
    case isTrue hdata => exact Option.some.inj h ▸ hdata.2.1
    case isFalse => cases h
  · cases h

theorem serviceText_ne_nil {nodeName matchNode matchVal : Str} {i : Item} {v : Str}
    (h : serviceText nodeName matchNode matchVal i = some v) : v ≠ [] := by
  unfold serviceText at h
  split at h
  · split at h
    · split at h
      case isTrue hdata => exact Option.some.inj h ▸ hdata.2
      case isFalse => cases h
    · cases h
  · cases h

theorem firstText_eq (t : Tree) (nodeName : Str) :
    firstText t nodeName = ((t.picks (elementMatch nodeName)).head?).getD [] := by
  rw [← Tree.findSome?_items (elementMatch_leaf nodeName), firstText]
  induction t.items with
  | nil => rfl
  | cons i items ih =>
    rw [List.find?_cons, List.findSome?_cons]
    by_cases hi : i.isElement = true ∧ i.name = some nodeName
    · simp [elementMatch, hi]
    · rw [decide_eq_false hi, elementMatch, if_neg hi]
      exact ih

/-- Options over texts that are not empty are told apart by the texts. -/
theorem getD_nil_inj {o o' : Option Str} (ho : ∀ v, o = some v → v ≠ []) (ho' : ∀ v, o' = some v → v ≠ []) :
    o.getD [] = o'.getD [] ↔ o = o' := by
  constructor
  · intro h
    cases o with
    | none =>
      cases o' with
      | none => rfl
      | some v' => exact absurd h.symm (ho' v' rfl)
    | some v =>
      cases o' with
      | none => exact absurd h (ho v rfl)
      | some v' => exact congrArg some h
  · rintro rfl
    rfl

/-- Both ends of a list are missing or neither is. -/
theorem head?_getD_eq_iff (l : List Str) : l.getLastD [] = l.head?.getD [] ↔ l.getLast? = l.head? := by
  rw [List.getLastD_eq_getLast?]
  cases l with
  | nil => simp
  | cons a l => simp [List.getLast?_cons]

/-! ## When they find the first match -/

/-- Every node that is reached has a name, and the first and the last match reached have the same text. -/
structure FirstIsLast (t : Tree) (nodeName : Str) : Prop where
  names : t.NamesReached (elementMatch nodeName)
  ends : (t.picks (elementMatch nodeName)).getLast? = (t.picks (elementMatch nodeName)).head?

/-- Every node that is reached has a name, and the last service that is picked has the text of the first that qualifies. -/
structure LastPickQualifies (t : Tree) (nodeName matchNode matchVal : Str) : Prop where
  names : t.NamesReached (serviceMatch nodeName matchNode matchVal)
  ends : (t.picks (serviceMatch nodeName matchNode matchVal)).getLast? =
    t.items.findSome? (serviceText nodeName matchNode matchVal)

theorem getValue_first_iff (t : Tree) (nodeName : Str) :
    getValue t nodeName = some (firstText t nodeName) ↔ FirstIsLast t nodeName := by
  unfold getValue getElementDetails
  rw [Tree.walk_eq_some_iff (elementMatch_leaf nodeName), firstText_eq, head?_getD_eq_iff]
  exact ⟨fun h => ⟨h.1, h.2⟩, fun h => ⟨h.names, h.ends⟩⟩

theorem getValueUnderSameParent_first_iff (t : Tree) (nodeName matchNode matchVal : Str) :
    getValueUnderSameParent t nodeName matchNode matchVal = some (firstService t nodeName matchNode matchVal) ↔
      LastPickQualifies t nodeName matchNode matchVal := by
  have hpicked (v : Str) (h : (t.picks (serviceMatch nodeName matchNode matchVal)).getLast? = some v) : v ≠ [] := by
    obtain ⟨i, -, hi⟩ := List.mem_filterMap.1 (List.mem_of_getLast? h)
    exact serviceMatch_ne_nil hi
  have hfirst (v : Str) (h : t.items.findSome? (serviceText nodeName matchNode matchVal) = some v) : v ≠ [] := by
    obtain ⟨i, -, hi⟩ := List.exists_of_findSome?_eq_some h
    exact serviceText_ne_nil hi
  unfold getValueUnderSameParent getMatchingElementDetails
  rw [Tree.walk_eq_some_iff (serviceMatch_leaf nodeName matchNode matchVal), List.getLastD_eq_getLast?, firstService,
    getD_nil_inj hpicked hfirst]
  exact ⟨fun h => ⟨h.1, h.2⟩, fun h => ⟨h.names, h.ends⟩⟩

end XMLHandler

open XMLHandler in
/-- The look-ups find the first match exactly when they reach only nodes with names,
and the last match they pick has the text of the first. -/
theorem look_ups_first_iff (t : Tree) :
    (∀ nodeName, getValue t nodeName = some (firstText t nodeName) ↔ FirstIsLast t nodeName) ∧
      ∀ nodeName matchNode matchVal,
        getValueUnderSameParent t nodeName matchNode matchVal = some (firstService t nodeName matchNode matchVal) ↔
          LastPickQualifies t nodeName matchNode matchVal :=
  ⟨getValue_first_iff t, getValueUnderSameParent_first_iff t⟩

namespace XMLHandler

/-- An element that holds a text. -/
def textElement (name text : String) (next : Tree) : Tree :=
  .element name.toList [] (.leaf .text text.toList .null) next

/-- A service of a description. -/
def service (serviceType controlURL : String) (next : Tree) : Tree :=
  .element "service".toList [] (textElement "serviceType" serviceType (textElement "controlURL" controlURL .null)) next

def contentDirectory : String := "urn:schemas-upnp-org:service:ContentDirectory:1"

/-- A device with a content directory, and another device embedded in it with its own. -/
def twoDirectories : Tree :=
  .element "device".toList [] (.element "serviceList".toList [] (service contentDirectory "/ctl/a" .null)
    (.element "deviceList".toList [] (.element "device".toList []
      (.element "serviceList".toList [] (service contentDirectory "/ctl/b" .null) .null) .null) .null)) .null

end XMLHandler

open XMLHandler in
/-- Both look-ups find the control URL of the embedded device. -/
theorem embedded_directory_found :
    firstService twoDirectories "controlURL".toList "serviceType".toList "service:ContentDirectory:1".toList =
        "/ctl/a".toList ∧
      getValueUnderSameParent twoDirectories "controlURL".toList "serviceType".toList
        "service:ContentDirectory:1".toList = some "/ctl/b".toList ∧
      firstText twoDirectories "controlURL".toList = "/ctl/a".toList ∧
      getValue twoDirectories "controlURL".toList = some "/ctl/b".toList := by
  refine ⟨?_, ?_, ?_, ?_⟩ <;> decide +kernel

end StorageAccess
