import StorageAccess.Lib.XmlText
import StorageAccess.Model.UpnpOperation
import StorageAccess.Proofs.Utility
/-!
# The text of a Browse request

Two literals of the request stand side by side without white space between the
attributes they hold, so that no request is an XML document, whatever its arguments
are. With a blank there, and with what the caller passes escaped, every request reads
back as it was meant.
-/

open Posix Xml

namespace StorageAccess

open CurlClient

/-- The text is a document that holds the arguments of a Browse request. -/
def ReadsAs (text : Str) (objId : Int) (filter : Str) (start count : Int) (sort : Str) : Prop :=
  ∃ t, Document text t ∧ texts "ObjectID".toList t.items = [toText objId] ∧ texts "Filter".toList t.items = [filter] ∧
    texts "StartingIndex".toList t.items = [toText start] ∧ texts "RequestedCount".toList t.items = [toText count] ∧
    texts "SortCriteria".toList t.items = [sort]

theorem ReadsAs.wellFormed {text filter sort : Str} {objId start count : Int} (h : ReadsAs text objId filter start count sort) :
    WellFormed text := by
  obtain ⟨t, ht, -⟩ := h
  exact ⟨t, ht⟩

/-- The arguments of a request, one a line. -/
def arguments (objId flag filter start count sort : Str) : Str :=
  argument "ObjectID" objId ++
    (argument "BrowseFlag" (if flag = upnpBrowseChildFlag then upnpBrowseChildFlag else upnpBrowseMetadataFlag) ++
      (argument "Filter" filter ++ (argument "StartingIndex" start ++
        (argument "RequestedCount" count ++ argument "SortCriteria" sort))))

/-- A request with a text between the two attributes of the envelope. -/
def requestWith (between args : Str) : Str :=
  (envelopeHead.take 2).flatMap String.toList ++ (between ++ ((envelopeHead.drop 2).flatMap String.toList ++
    (args ++ envelopeTail.toList)))

/-- The request is the one with nothing there. -/
theorem setUpnpXmlData_eq (objId : Int) (flag filter : Str) (start count : Int) (sort : Str) :
    setUpnpXmlData objId flag filter start count sort =
      requestWith [] (arguments (toText objId) flag filter (toText start) (toText count) sort) := by
  unfold setUpnpXmlData requestWith arguments
  have hhead : envelopeHead.flatMap String.toList =
      (envelopeHead.take 2).flatMap String.toList ++ (envelopeHead.drop 2).flatMap String.toList := by
    rw [← List.flatMap_append, List.take_append_drop]
  rw [hhead]
  simp only [List.append_assoc, List.nil_append]

/-! ## As it is -/

/-- Behind the first attribute of the envelope comes the name of the second one. -/
theorem no_blank_rejected : Mode.misc.scan (envelopeHead.flatMap String.toList) = none := by decide +kernel

theorem no_return_in_head : '\r' ∉ envelopeHead.flatMap String.toList := by decide +kernel

theorem setUpnpXmlData_not_wellFormed (objId : Int) (flag filter : Str) (start count : Int) (sort : Str) :
    ¬ WellFormed (setUpnpXmlData objId flag filter start count sort) := by
  unfold setUpnpXmlData
  rw [List.append_assoc]
  exact not_wellFormed_of_scan no_blank_rejected no_return_in_head _

/-- No request is a document, so none reads back. -/
theorem browse_request_malformed (objId : Int) (flag filter : Str) (start count : Int) (sort : Str) :
    ¬ WellFormed (setUpnpXmlData objId flag filter start count sort) ∧
      ¬ ReadsAs (setUpnpXmlData objId flag filter start count sort) objId filter start count sort := by
  have hmalformed := setUpnpXmlData_not_wellFormed objId flag filter start count sort
  exact ⟨hmalformed, fun h => hmalformed h.wellFormed⟩

/-- The request for the children of the root. -/
theorem root_request_malformed :
    ¬ WellFormed (setUpnpXmlData 0 upnpBrowseChildFlag upnpDefFilter 0 0 upnpDefSortCriteria) ∧
      ¬ ReadsAs (setUpnpXmlData 0 upnpBrowseChildFlag upnpDefFilter 0 0 upnpDefSortCriteria) 0 upnpDefFilter 0 0
        upnpDefSortCriteria := by
  have hmalformed := setUpnpXmlData_not_wellFormed 0 upnpBrowseChildFlag upnpDefFilter 0 0 upnpDefSortCriteria
  exact ⟨hmalformed, fun h => hmalformed h.wellFormed⟩

/-! ## With a blank in it -/

theorem toText_chars {n : Int} {c : Char} (h : c ∈ toText n) : c = '-' ∨ c.isDigit = true := by
  unfold toText at h
  split at h
  · exact (List.mem_cons.1 h).imp_right isDigit_of_mem_toDigits
  · exact .inr (isDigit_of_mem_toDigits h)

theorem isChar_of_isDigit {c : Char} (h : c.isDigit = true) : isChar c = true := by
  have hrange := Char.isDigit_iff_toNat.1 h
  have hzero : '0'.toNat = 48 := rfl
  have hnine : '9'.toNat = 57 := rfl
  simp [isChar, inRanges]
  omega

theorem isChar_toText {n : Int} : ∀ c ∈ toText n, isChar c = true := by
  intro c hc
  rcases toText_chars hc with rfl | hdigit
  · rfl
  · exact isChar_of_isDigit hdigit

/-- A number reads as itself: there is nothing in it to escape. -/
theorem escape_toText (n : Int) : escape (toText n) = toText n := by
  have hsame : ∀ c ∈ toText n, escapeChar c = [c] := by
    intro c hc
    have hne (d : Char) (hd : d ≠ '-') (hdigit : d.isDigit = false) : c ≠ d := by
      rintro rfl
      rcases toText_chars hc with heq | h
      · exact hd heq
      · exact absurd h (by simp [hdigit])
    simp [escapeChar, hne '&' (by decide) rfl, hne '<' (by decide) rfl, hne '>' (by decide) rfl, hne '\r' (by decide) rfl]
  unfold escape
  rw [List.flatMap_congr hsame, List.flatMap_singleton']

theorem text_toText (n : Int) : Text (toText n) (toText n) := by
  have h := text_escape (isChar_toText (n := n))
  rwa [escape_toText] at h

/-- A line of arguments, from the end of the line in front of it to its own. -/
theorem argument_content {name : String} {s v r : Str} {next : Tree} (hname : Name name.toList) (h : Text s v)
    (rest : Content ('\n' :: r) next) :
    Content ('\n' :: (argument name s ++ r))
      (.leaf .text "\n   ".toList (.element name.toList [] (textTree v) next)) := by
  have hblank : Text "\n   ".toList "\n   ".toList := text_of_plain (by decide)
  have hwhite : White [] := nofun
  have helement := Content.element (tag_of_name hname) h.content hwhite rest
  have hcontent := Content.text (by decide) hblank (by simp) helement
  have hargument : '\n' :: (argument name s ++ r) = "\n   ".toList ++ '<' :: (name.toList ++ '>' :: (s ++ '<' :: '/' ::
      (name.toList ++ ([] ++ '>' :: '\n' :: r)))) := by
    unfold argument
    simp
  rwa [hargument]

/-- An element on a line of its own, with white space in front of it. -/
theorem line_content {white tag name s r : Str} {ps : List Attr} {children next : Tree}
    (hwhite : white.all isPlain = true) (ne : white ≠ []) (htag : Tag tag name ps) (inner : Content s children)
    (rest : Content r next) :
    Content (white ++ '<' :: (tag ++ '>' :: (s ++ '<' :: '/' :: (name ++ ([] ++ '>' :: r)))))
      (.leaf .text white (.element name ps children next)) := by
  have hnone : White [] := nofun
  exact .text ne (text_of_plain hwhite) (by simp) (.element htag inner hnone rest)

def flagText (flag : Str) : Str := if flag = upnpBrowseChildFlag then upnpBrowseChildFlag else upnpBrowseMetadataFlag

/-- The arguments as nodes, each with the white space in front of it. -/
def argumentNodes (objId flag filter start count sort : Str) : Tree :=
  let node (name : String) (v : Str) (next : Tree) : Tree :=
    .leaf .text "\n   ".toList (.element name.toList [] (textTree v) next)
  node "ObjectID" objId (node "BrowseFlag" (flagText flag) (node "Filter" filter (node "StartingIndex" start
    (node "RequestedCount" count (node "SortCriteria" sort (.leaf .text "\n  ".toList .null))))))

theorem arguments_content (flag : Str) {filter sort : Str} (hfilter : ∀ c ∈ filter, isChar c) (hsort : ∀ c ∈ sort, isChar c)
    (objId start count : Int) :
    Content ('\n' :: (arguments (toText objId) flag (escape filter) (toText start) (toText count) (escape sort) ++ "  ".toList))
      (argumentNodes (toText objId) flag filter (toText start) (toText count) sort) := by
  have hflag : Text (flagText flag) (flagText flag) := by
    unfold flagText
    split
    · exact text_of_plain (by decide)
    · exact text_of_plain (by decide)
  have hend : Content ('\n' :: "  ".toList) (.leaf .text "\n  ".toList .null) := by
    have hblank : Text "\n  ".toList "\n  ".toList := text_of_plain (by decide)
    exact .text (by decide) hblank (by simp) .nil
  unfold arguments argumentNodes
  simp only [List.append_assoc]
  apply argument_content (name_of_isName (by decide)) (text_toText objId)
  apply argument_content (name_of_isName (by decide)) hflag
  apply argument_content (name_of_isName (by decide)) (text_escape hfilter)
  apply argument_content (name_of_isName (by decide)) (text_toText start)
  apply argument_content (name_of_isName (by decide)) (text_toText count)
  exact argument_content (name_of_isName (by decide)) (text_escape hsort) hend

theorem attributes_cons {name v s : Str} {ps : List Attr} (hname : Name name)
    (hv : (v.all fun c => isPlain c && c != '"' && !isWhite c) = true) (ne : v ≠ [])
    (rest : Attributes s ps) : Attributes (' ' :: (name ++ '=' :: '"' :: (v ++ '"' :: s))) (⟨name, some v⟩ :: ps) := by
  have hblank : White [' '] := List.forall_mem_singleton.2 rfl
  have hnone : White [] := nofun
  have hattrs := Attributes.cons (by decide) hblank hname hnone hnone (value_of_plain hv) rest
  rw [if_neg ne] at hattrs
  simpa using hattrs

def soapUrl : Str := "http://schemas.xmlsoap.org/soap/envelope/".toList

def encodingUrl : Str := "http://schemas.xmlsoap.org/soap/encoding/".toList

def serviceUrn : Str := "urn:schemas-upnp-org:service:ContentDirectory:1".toList

def envelopeTag : Str :=
  "s:Envelope".toList ++ (' ' :: ("xmlns:s".toList ++ '=' :: '"' :: (soapUrl ++ '"' ::
    ' ' :: ("s:encodingStyle".toList ++ '=' :: '"' :: (encodingUrl ++ '"' :: [])))) ++ [])

def browseTag : Str := "u:Browse".toList ++ (' ' :: ("xmlns:u".toList ++ '=' :: '"' :: (serviceUrn ++ '"' :: [])) ++ [])

theorem envelope_tag : Tag envelopeTag "s:Envelope".toList
    [⟨"xmlns:s".toList, some soapUrl⟩, ⟨"s:encodingStyle".toList, some encodingUrl⟩] := by
  refine ⟨_, [], rfl, name_of_isName (by decide), ?_, by decide, nofun⟩
  apply attributes_cons (name_of_isName (by decide)) (by decide) (by decide)
  exact attributes_cons (name_of_isName (by decide)) (by decide) (by decide) .nil

theorem browse_tag : Tag browseTag "u:Browse".toList [⟨"xmlns:u".toList, some serviceUrn⟩] := by
  refine ⟨_, [], rfl, name_of_isName (by decide), ?_, by decide, nofun⟩
  exact attributes_cons (name_of_isName (by decide)) (by decide) (by decide) .nil

theorem request_declaration : Declaration "<?xml version=\"1.0\"?>".toList := by
  refine ⟨" version=\"1.0\"".toList, [], [], [], by decide, ?_, .inl rfl, .inl rfl, nofun⟩
  have hversion : Version "1.0".toList := ⟨['0'], rfl, by decide, List.forall_mem_singleton.2 rfl⟩
  have hblank : White [' '] := List.forall_mem_singleton.2 rfl
  exact ⟨[' '], [], [], '"', "1.0".toList, by decide, hblank, nofun, nofun, by decide, hversion, by decide⟩

/-- The request as a declaration, the root element and an end of line. -/
theorem requestWith_blank (args : Str) :
    requestWith [' '] args = "<?xml version=\"1.0\"?>".toList ++ ("\n".toList ++ (
      '<' :: (envelopeTag ++ '>' :: (
        ("\n ".toList ++ '<' :: ("s:Body".toList ++ '>' :: (
          ("\n  ".toList ++ '<' :: (browseTag ++ '>' :: ('\n' :: (args ++ "  ".toList) ++
            '<' :: '/' :: ("u:Browse".toList ++ ([] ++ '>' :: "\n ".toList))))) ++
          '<' :: '/' :: ("s:Body".toList ++ ([] ++ '>' :: "\n".toList))))) ++
        '<' :: '/' :: ("s:Envelope".toList ++ ([] ++ '>' :: [])))) ++ "\n".toList)) := by
  have hhead : (envelopeHead.take 2).flatMap String.toList ++ ([' '] ++ (envelopeHead.drop 2).flatMap String.toList) =
      "<?xml version=\"1.0\"?>".toList ++ ("\n".toList ++ '<' :: (envelopeTag ++ '>' :: ("\n ".toList ++ '<' ::
        ("s:Body".toList ++ '>' :: ("\n  ".toList ++ '<' :: (browseTag ++ ['>', '\n'])))))) := by decide +kernel
  have htail : envelopeTail.toList = "  ".toList ++ '<' :: '/' :: ("u:Browse".toList ++ '>' :: ("\n ".toList ++ '<' :: '/' ::
      ("s:Body".toList ++ '>' :: ("\n".toList ++ '<' :: '/' :: ("s:Envelope".toList ++ '>' :: "\n".toList))))) := by
    decide +kernel
  have hparts : requestWith [' '] args = ((envelopeHead.take 2).flatMap String.toList ++
      ([' '] ++ (envelopeHead.drop 2).flatMap String.toList)) ++ (args ++ envelopeTail.toList) := by
    simp only [requestWith, List.append_assoc]
  rw [hparts, hhead, htail]
  simp only [List.append_assoc, List.cons_append, List.nil_append]

/-! ### Reading it back -/

theorem no_return_in_argument {name : String} {s : Str} (hname : '\r' ∉ name.toList) (hs : '\r' ∉ s) :
    '\r' ∉ argument name s := by
  unfold argument
  simp only [List.mem_append, List.mem_cons, not_or]
  exact ⟨⟨by decide, hname⟩, by decide, ⟨⟨hs, by decide⟩, hname⟩, by decide⟩

theorem no_return_in_text (n : Int) : '\r' ∉ toText n := by
  rw [← escape_toText]
  exact not_mem_escape (.inr rfl) _

theorem no_return_in_arguments (objId start count : Int) (flag filter sort : Str) :
    '\r' ∉ arguments (toText objId) flag (escape filter) (toText start) (toText count) (escape sort) := by
  have hflag : '\r' ∉ flagText flag := by
    unfold flagText
    split <;> decide
  have hescape (s : Str) : '\r' ∉ escape s := not_mem_escape (.inr rfl) s
  unfold arguments
  simp only [List.mem_append, not_or]
  refine ⟨?_, ?_, ?_, ?_, ?_, ?_⟩
  · exact no_return_in_argument (by decide) (no_return_in_text objId)
  · exact no_return_in_argument (by decide) hflag
  · exact no_return_in_argument (by decide) (hescape filter)
  · exact no_return_in_argument (by decide) (no_return_in_text start)
  · exact no_return_in_argument (by decide) (no_return_in_text count)
  · exact no_return_in_argument (by decide) (hescape sort)

/-- The nodes of a request around those of its arguments. -/
def requestNodes (nodes : Tree) : Tree :=
  .element "s:Envelope".toList [⟨"xmlns:s".toList, some soapUrl⟩, ⟨"s:encodingStyle".toList, some encodingUrl⟩]
    (.leaf .text "\n ".toList (.element "s:Body".toList []
      (.leaf .text "\n  ".toList (.element "u:Browse".toList [⟨"xmlns:u".toList, some serviceUrn⟩] nodes
        (.leaf .text "\n ".toList .null)))
      (.leaf .text "\n".toList .null))) .null

theorem requestWith_blank_document {args : Str} {nodes : Tree} (hargs : Content ('\n' :: (args ++ "  ".toList)) nodes)
    (hreturn : '\r' ∉ args) : Document (requestWith [' '] args) (requestNodes nodes) := by
  have hlines : endOfLines (requestWith [' '] args) = requestWith [' '] args := by
    have hhead : '\r' ∉ (envelopeHead.take 2).flatMap String.toList ++ (envelopeHead.drop 2).flatMap String.toList := by
      rw [← List.flatMap_append, List.take_append_drop]
      exact no_return_in_head
    have htail : '\r' ∉ envelopeTail.toList := by decide
    have hnone : '\r' ∉ requestWith [' '] args := by
      rw [List.mem_append, not_or] at hhead
      simp only [requestWith, List.mem_append, not_or]
      exact ⟨hhead.1, by decide, hhead.2, hreturn, htail⟩
    have hall := endOfLines_append hnone []
    rwa [List.append_nil, endOfLines, List.append_nil] at hall
  have hend {s : Str} (hs : s.all isPlain = true) (ne : s ≠ []) : Content s (.leaf .text s .null) := by
    have hcontent := Content.text ne (text_of_plain hs) (by simp) .nil
    rwa [List.append_nil] at hcontent
  have hbody : Tag "s:Body".toList "s:Body".toList [] :=
    tag_of_name (name_of_isName (by decide))
  have hnone : White [] := fun _ h => absurd h List.not_mem_nil
  have hmisc : Misc "\n".toList := .white (by decide) .nil
  refine ⟨_, _, _, "\n".toList, _, _, _, hlines.trans (requestWith_blank args), .inr request_declaration, hmisc, rfl, ?_, hmisc⟩
  apply Content.element envelope_tag _ hnone .nil
  apply line_content (by decide) (by decide) hbody _ (hend (by decide) (by decide))
  exact line_content (by decide) (by decide) browse_tag hargs (hend (by decide) (by decide))

theorem texts_requestNodes {key : Str} (henvelope : "s:Envelope".toList ≠ key) (hbody : "s:Body".toList ≠ key)
    (hbrowse : "u:Browse".toList ≠ key) (nodes : Tree) : texts key (requestNodes nodes).items = texts key nodes.items := by
  have hnil : texts key Tree.null.items = [] := rfl
  simp only [requestNodes, texts_items_element, texts_items_leaf, if_neg henvelope, if_neg hbody, if_neg hbrowse, hnil,
    List.append_nil, List.nil_append]

theorem texts_argumentNodes (key objId flag filter start count sort : Str) :
    texts key (argumentNodes objId flag filter start count sort).items =
      (if "ObjectID".toList = key then [objId] else []) ++ ((if "BrowseFlag".toList = key then [flagText flag] else []) ++
        ((if "Filter".toList = key then [filter] else []) ++ ((if "StartingIndex".toList = key then [start] else []) ++
          ((if "RequestedCount".toList = key then [count] else []) ++ (if "SortCriteria".toList = key then [sort] else []))))) := by
  have hnil : texts key Tree.null.items = [] := rfl
  simp only [argumentNodes, texts_items_element, texts_items_leaf, texts_textTree, content_textTree, hnil, List.append_nil,
    List.nil_append]

/-- With a blank between the two attributes and with its texts escaped, every request
reads back. -/
theorem requestWith_blank_reads {flag filter sort : Str} (hfilter : ∀ c ∈ filter, isChar c) (hsort : ∀ c ∈ sort, isChar c)
    (objId start count : Int) :
    ReadsAs (requestWith [' '] (arguments (toText objId) flag (escape filter) (toText start) (toText count) (escape sort)))
      objId filter start count sort := by
  have hargs := arguments_content flag hfilter hsort objId start count
  have hreturn := no_return_in_arguments objId start count flag filter sort
  refine ⟨_, requestWith_blank_document hargs hreturn, ?_, ?_, ?_, ?_, ?_⟩
  all_goals
    rw [texts_requestNodes (by decide) (by decide) (by decide), texts_argumentNodes]
    simp

end StorageAccess
