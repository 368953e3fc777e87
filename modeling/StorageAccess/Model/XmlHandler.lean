import StorageAccess.Lib.Xml
import StorageAccess.Model.Common
/-!
# Reading the answers of media servers

The answers are XML trees. Looking up a name and listing a container are walks
through a whole tree. Where a walk throws, because a node has no name or a text is
no number, there is no result.
-/

open Posix Xml

namespace StorageAccess

/-- `std::to_string` of an `int`. -/
def toText (n : Int) : Str := if n < 0 then '-' :: Nat.toDigits 10 n.natAbs else Nat.toDigits 10 n.natAbs

/-- The characters `isspace` accepts. -/
def isSpace (c : Char) : Bool := [' ', '\t', '\n', Char.ofNat 11, Char.ofNat 12, '\r'].contains c

/-- The sign of a number, and what follows it. -/
def sign : Str → Int × Str
  | '-' :: s => (-1, s)
  | '+' :: s => (1, s)
  | s => (1, s)

/-- `std::stoi`, which reads the digits at the front. It throws if there are none or
the number is not an `int`. -/
def stoi (s : Str) : Option Int :=
  let (factor, s) := sign (s.dropWhile isSpace)
  let digits := s.takeWhile Char.isDigit
  let n := factor * Nat.ofDigitChars 10 digits 0
  if digits = [] ∨ n < -2 ^ 31 ∨ 2 ^ 31 ≤ n then none else some n

example : stoi " 64$0".toList = some 64 := by decide

example : stoi "A1".toList = none := by decide

/-- One entry of a UPnP container. -/
structure DirDetails where
  id : Int := -1
  restricted : Int := -1
  childCount : Int := 0
  title : Str := []
  className : Str := []
  resUrl : Str := []
  deriving DecidableEq, Repr

/-- The attributes of an entry. One that is not there is empty. -/
structure EntryAttributes where
  id : Str := []
  pId : Str := []
  rest : Str := []
  chCount : Str := []

namespace XMLHandler

/-! ## Looking a name up -/

def elementMatch (nodeName : Str) (i : Item) : Option Str :=
  if i.isElement ∧ i.name = some nodeName then some i.children.content else none

/-- The return at an element with the name leaves the innermost call only. -/
def getElementDetails (nodeName : Str) : Tree → Str → Option Str := Tree.walk (elementMatch nodeName)

def getValue (root : Tree) (nodeName : Str) : Option Str := getElementDetails nodeName root []

/-- The texts of the two children of a service that are looked at. The loop ends at the
first child that is no element. -/
def serviceData (nodeName matchNode : Str) : Tree → (matchData nodeData : Str) → Str × Str
  | .element name _ children next, matchData, nodeData =>
    if name = matchNode then serviceData nodeName matchNode next children.content nodeData
    else if name = nodeName then serviceData nodeName matchNode next matchData children.content
    else serviceData nodeName matchNode next matchData nodeData
  | _, matchData, nodeData => (matchData, nodeData)

/-- What a service has for the name, if it is the one that is looked for. -/
def serviceMatch (nodeName matchNode matchVal : Str) (i : Item) : Option Str :=
  if i.name = some "service".toList then
    let (matchData, nodeData) := serviceData nodeName matchNode i.children [] []
    if matchData ≠ [] ∧ nodeData ≠ [] ∧ matchVal <:+: matchData then some nodeData else none
  else none

/-- Like `getElementDetails`, with a `break`. -/
def getMatchingElementDetails (nodeName matchNode matchVal : Str) : Tree → Str → Option Str :=
  Tree.walk (serviceMatch nodeName matchNode matchVal)

def getValueUnderSameParent (root : Tree) (nodeName matchNode matchVal : Str) : Option Str :=
  getMatchingElementDetails nodeName matchNode matchVal root []

/-! ## Listing a container -/

/-- The loop over the attributes ends at the first one without a value. -/
def readAttributes : List Attr → EntryAttributes → EntryAttributes
  | ⟨key, some val⟩ :: rest, a =>
    readAttributes rest
      (if key = "id".toList then { a with id := val }
      else if key = "parentID".toList then { a with pId := val }
      else if key = "restricted".toList then { a with rest := val }
      else if key = "childCount".toList then { a with chCount := val }
      else a)
  | _, a => a

/-- The loop over the children ends at the first one that is no element. -/
def readChildren : Tree → DirDetails → DirDetails
  | .element name _ children next, d =>
    readChildren next
      (if name = "title".toList then { d with title := children.content }
      else if name = "class".toList then { d with className := children.content }
      else if name = "res".toList then { d with resUrl := children.content }
      else d)
  | _, d => d

/-- A number that may be missing. -/
def readNumber (val : Str) (default : Int) : Option Int := if val = [] then some default else stoi val

/-- What is pushed for a node named `container` or `item`. -/
def entryDetails (parentID : Int) (i : Item) : Option DirDetails :=
  let a := readAttributes i.properties {}
  if a.pId = toText parentID then do
    let id ← readNumber a.id (-1)
    let restricted ← readNumber a.rest (-1)
    let childCount ← readNumber a.chCount 0
    some (readChildren i.children { id, restricted, childCount })
  -- an entry of another container is pushed as well, without its data
  else some {}

def isEntry (i : Item) : Bool := i.name = some "container".toList ∨ i.name = some "item".toList

/-- What one node adds to the list. -/
def pushEntry (parentID : Int) (i : Item) (mCurDirDetails : List DirDetails) : Option (List DirDetails) := do
  let _ ← i.name
  if isEntry i then
    let dirDet ← entryDetails parentID i
    some (mCurDirDetails ++ [dirDet])
  else some mCurDirDetails

def getCurDirElementDetails (parentID : Int) : Tree → List DirDetails → Option (List DirDetails)
  | .null, ds => some ds
  | .element name properties children next, ds => do
    let ds ← pushEntry parentID (.element name properties children) ds
    let ds ← getCurDirElementDetails parentID children ds
    getCurDirElementDetails parentID next ds
  | .leaf kind _ next, ds => do
    let ds ← pushEntry parentID (.leaf kind) ds
    getCurDirElementDetails parentID next ds

def getCurDirDetails (root : Tree) (parentID : Int) : Option (List DirDetails) :=
  getCurDirElementDetails parentID root []

end XMLHandler

end StorageAccess
