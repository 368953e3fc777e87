import Mathlib.Data.List.Infix
import StorageAccess.Lib.Xml
/-!
# Texts that are XML documents

The grammar of a document without a type declaration, one definition a production:
each says which texts the production allows and what they read as. The names are
those that stand in the text, with their prefixes.

A scan goes over the start of a document, up to the end of the first tag, and knows
only what kind of thing it is in. It cannot tell documents from other texts, but it
accepts every document, so a text it rejects is none.
-/

open Posix (Str)

namespace Xml

/-! ## Characters -/

def inRanges (ranges : List (Nat × Nat)) (c : Char) : Bool := ranges.any fun r => r.1 ≤ c.toNat ∧ c.toNat ≤ r.2

def isChar : Char → Bool := inRanges [(0x9, 0xA), (0xD, 0xD), (0x20, 0xD7FF), (0xE000, 0xFFFD), (0x10000, 0x10FFFF)]

def isWhite (c : Char) : Bool := c ∈ [' ', '\t', '\r', '\n']

def nameStartRanges : List (Nat × Nat) :=
  [(0x3A, 0x3A), (0x41, 0x5A), (0x5F, 0x5F), (0x61, 0x7A), (0xC0, 0xD6), (0xD8, 0xF6), (0xF8, 0x2FF), (0x370, 0x37D),
   (0x37F, 0x1FFF), (0x200C, 0x200D), (0x2070, 0x218F), (0x2C00, 0x2FEF), (0x3001, 0xD7FF), (0xF900, 0xFDCF),
   (0xFDF0, 0xFFFD), (0x10000, 0xEFFFF)]

def isNameStart : Char → Bool := inRanges nameStartRanges

/-- What may follow in a name, digits, `-` and `.` among it. -/
def isNameChar : Char → Bool :=
  inRanges ([(0x2D, 0x2E), (0x30, 0x39), (0xB7, 0xB7), (0x300, 0x36F), (0x203F, 0x2040)] ++ nameStartRanges)

/-- Every end of a line is read as a line feed. -/
def endOfLines : Str → Str
  | '\r' :: '\n' :: s => '\n' :: endOfLines s
  | '\r' :: s => '\n' :: endOfLines s
  | c :: s => c :: endOfLines s
  | [] => []

/-! ## The grammar -/

/-- White space, or nothing. -/
def White (s : Str) : Prop := ∀ c ∈ s, isWhite c

instance (s : Str) : Decidable (White s) := inferInstanceAs (Decidable (∀ c ∈ s, isWhite c))

def Name (s : Str) : Prop := ∃ c r, s = c :: r ∧ isNameStart c ∧ ∀ d ∈ r, isNameChar d

/-- The entities a document has without declaring them. -/
def predefined : List (Str × Char) :=
  [("amp".toList, '&'), ("lt".toList, '<'), ("gt".toList, '>'), ("apos".toList, '\''), ("quot".toList, '"')]

/-- Digits and the character they are the number of. -/
structure CharNumber (base : Nat) (digit : Char → Option Nat) (ds : Str) (c : Char) : Prop where
  ne : ds ≠ []
  digits : ∀ d ∈ ds, (digit d).isSome
  value : ds.foldl (fun n d => base * n + (digit d).getD 0) 0 = c.toNat
  char : isChar c

def decimalDigit (d : Char) : Option Nat := if d.isDigit then some (d.toNat - 48) else none

def hexDigit (d : Char) : Option Nat :=
  if d.isDigit then some (d.toNat - 48)
  else if 'a' ≤ d ∧ d ≤ 'f' then some (d.toNat - 87)
  else if 'A' ≤ d ∧ d ≤ 'F' then some (d.toNat - 55)
  else none

/-- A reference and the character it stands for. -/
inductive Reference : Str → Char → Prop
  | entity {name : Str} {c : Char} (h : (name, c) ∈ predefined) : Reference ('&' :: (name ++ [';'])) c
  | decimal {ds : Str} {c : Char} (h : CharNumber 10 decimalDigit ds c) : Reference ('&' :: '#' :: (ds ++ [';'])) c
  | hex {ds : Str} {c : Char} (h : CharNumber 16 hexDigit ds c) : Reference ('&' :: '#' :: 'x' :: (ds ++ [';'])) c

/-- Characters, each with what it reads as, and references. -/
inductive Chars (literal : Char → Option Char) : Str → Str → Prop
  | nil : Chars literal [] []
  | char {c d : Char} {s v : Str} (h : literal c = some d) (rest : Chars literal s v) : Chars literal (c :: s) (d :: v)
  | reference {r : Str} {c : Char} {s v : Str} (h : Reference r c) (rest : Chars literal s v) :
      Chars literal (r ++ s) (c :: v)

def inText (c : Char) : Option Char := if isChar c ∧ c ≠ '<' ∧ c ≠ '&' then some c else none

/-- White space in a value reads as blanks. -/
def inValue (quote c : Char) : Option Char :=
  if isChar c ∧ c ≠ '<' ∧ c ≠ '&' ∧ c ≠ quote then some (if isWhite c then ' ' else c) else none

/-- A text and what it reads as. -/
def Text (s v : Str) : Prop := Chars inText s v ∧ ¬ "]]>".toList <:+: s

def Value (s v : Str) : Prop := ∃ quote ∈ ['"', '\''], ∃ w, s = quote :: (w ++ [quote]) ∧ Chars (inValue quote) w v

/-- Attributes, each with white space in front of it. -/
inductive Attributes : Str → List Attr → Prop
  | nil : Attributes [] []
  | cons {white name before after val v s : Str} {ps : List Attr} (ne : white ≠ []) (hwhite : White white) (hname : Name name)
      (hbefore : White before) (hafter : White after) (hval : Value val v) (rest : Attributes s ps) :
      Attributes (white ++ (name ++ (before ++ '=' :: (after ++ (val ++ s))))) (⟨name, if v = [] then none else some v⟩ :: ps)

/-- The inside of a tag: a name, attributes with different names, white space. -/
def Tag (s name : Str) (ps : List Attr) : Prop :=
  ∃ attrs white, s = name ++ (attrs ++ white) ∧ Name name ∧ Attributes attrs ps ∧ (ps.map (·.name)).Nodup ∧ White white

/-- The inside of a comment: no `-` is followed by another one, or is the last character. -/
inductive Comment : Str → Prop
  | nil : Comment []
  | char {c : Char} {s : Str} (h : isChar c ∧ c ≠ '-') (rest : Comment s) : Comment (c :: s)
  | dash {c : Char} {s : Str} (h : isChar c ∧ c ≠ '-') (rest : Comment s) : Comment ('-' :: c :: s)

/-- Any characters without an end mark in them. -/
def Until (mark s : Str) : Prop := (∀ c ∈ s, isChar c) ∧ ¬ mark <:+: s

/-- The inside of a processing instruction. -/
def Instruction (s target : Str) : Prop :=
  Name target ∧ target.map Char.toLower ≠ "xml".toList ∧
    ∃ body, s = target ++ body ∧ (∀ c ∈ body.head?, isWhite c) ∧ Until "?>".toList s

/-- What stands between two tags of an element. -/
inductive Content : Str → Tree → Prop
  | nil : Content [] .null
  | text {s v r : Str} {next : Tree} (ne : s ≠ []) (h : Text s v) (maximal : ∀ c ∈ r.head?, c = '<') (rest : Content r next) :
      Content (s ++ r) (.leaf .text v next)
  | cdata {s r : Str} {next : Tree} (h : Until "]]>".toList s) (rest : Content r next) :
      Content ("<![CDATA[".toList ++ (s ++ ("]]>".toList ++ r))) (.leaf .cdata s next)
  | comment {s r : Str} {next : Tree} (h : Comment s) (rest : Content r next) :
      Content ("<!--".toList ++ (s ++ ("-->".toList ++ r))) (.leaf .comment s next)
  | pi {s target r : Str} {next : Tree} (h : Instruction s target) (rest : Content r next) :
      Content ("<?".toList ++ (s ++ ("?>".toList ++ r))) (.leaf (.pi target) (s.drop target.length) next)
  | empty {tag name r : Str} {ps : List Attr} {next : Tree} (h : Tag tag name ps) (rest : Content r next) :
      Content ('<' :: (tag ++ '/' :: '>' :: r)) (.element name ps .null next)
  | element {tag name s white r : Str} {ps : List Attr} {children next : Tree} (h : Tag tag name ps)
      (inner : Content s children) (hwhite : White white) (rest : Content r next) :
      Content ('<' :: (tag ++ '>' :: (s ++ '<' :: '/' :: (name ++ (white ++ '>' :: r))))) (.element name ps children next)

/-- One setting of the declaration. -/
def Setting (name : Str) (ok : Str → Prop) (s : Str) : Prop :=
  ∃ white before after quote v, white ≠ [] ∧ White white ∧ White before ∧ White after ∧ quote ∈ ['"', '\''] ∧ ok v ∧
    s = white ++ (name ++ (before ++ '=' :: (after ++ quote :: (v ++ [quote]))))

def Version (v : Str) : Prop := ∃ ds, v = '1' :: '.' :: ds ∧ ds ≠ [] ∧ ∀ d ∈ ds, d.isDigit

def Encoding (v : Str) : Prop := ∃ c r, v = c :: r ∧ c.isAlpha ∧ ∀ d ∈ r, d.isAlphanum ∨ d ∈ ['.', '_', '-']

def Declaration (s : Str) : Prop :=
  ∃ version encoding standalone white, s = "<?xml".toList ++ (version ++ (encoding ++ (standalone ++ (white ++ "?>".toList)))) ∧
    Setting "version".toList Version version ∧ (encoding = [] ∨ Setting "encoding".toList Encoding encoding) ∧
    (standalone = [] ∨ Setting "standalone".toList (· ∈ ["yes".toList, "no".toList]) standalone) ∧ White white

/-- What may stand beside the root element. -/
inductive Misc : Str → Prop
  | nil : Misc []
  | white {c : Char} {s : Str} (h : isWhite c) (rest : Misc s) : Misc (c :: s)
  | comment {s r : Str} (h : Comment s) (rest : Misc r) : Misc ("<!--".toList ++ (s ++ ("-->".toList ++ r)))
  | pi {s target r : Str} (h : Instruction s target) (rest : Misc r) : Misc ("<?".toList ++ (s ++ ("?>".toList ++ r)))

/-- A document and its root element. -/
def Document (s : Str) (t : Tree) : Prop :=
  ∃ decl before root after name ps children, endOfLines s = decl ++ (before ++ (root ++ after)) ∧
    (decl = [] ∨ Declaration decl) ∧ Misc before ∧ t = .element name ps children .null ∧ Content root t ∧ Misc after

def WellFormed (s : Str) : Prop := ∃ t, Document s t

/-! ## The scan -/

/-- What the scan is in: between tags, behind `<`, behind `<!`, and so on, behind the
end of a value, and at last behind the first tag. -/
inductive Mode
  | misc
  | opening
  | bang
  | bangDash
  | comment
  | dash
  | dashDash
  | pi
  | mark
  | tag
  | value (quote : Char)
  | valued
  | inside
  deriving DecidableEq, Repr

namespace Mode

def step : Mode → Char → Option Mode
  | misc, c => some (if c = '<' then opening else misc)
  | opening, c => some (if c = '!' then bang else if c = '?' then pi else tag)
  | bang, c => if c = '-' then some bangDash else none
  | bangDash, c => if c = '-' then some comment else none
  | comment, c => some (if c = '-' then dash else comment)
  | dash, c => some (if c = '-' then dashDash else comment)
  | dashDash, c => if c = '>' then some misc else none
  | pi, c => some (if c = '?' then mark else pi)
  | mark, c => some (if c = '>' then misc else if c = '?' then mark else pi)
  | tag, c => some (if c = '>' then inside else if c = '"' ∨ c = '\'' then value c else tag)
  | value quote, c => some (if c = quote then valued else value quote)
  | valued, c => if isWhite c ∨ c = '/' then some tag else if c = '>' then some inside else none
  | inside, _ => some inside

def scan (l : Mode) (s : Str) : Option Mode := s.foldlM step l

theorem scan_append (l : Mode) (s s' : Str) : l.scan (s ++ s') = (l.scan s).bind (·.scan s') := List.foldlM_append

theorem scan_cons {l l' : Mode} {c : Char} (h : l.step c = some l') (s : Str) : l.scan (c :: s) = l'.scan s := by
  rw [scan, List.foldlM_cons, h]
  rfl

/-- Characters that change nothing. -/
theorem scan_same {l : Mode} {s : Str} (h : ∀ c ∈ s, l.step c = some l) : l.scan s = some l := by
  induction s with
  | nil => rfl
  | cons c s ih =>
    obtain ⟨hc, hs⟩ := List.forall_mem_cons.1 h
    rw [scan_cons hc, ih hs]

theorem scan_inside (s : Str) : inside.scan s = some inside := scan_same fun _ _ => rfl

theorem scan_then {l l' : Mode} {s : Str} (h : l.scan s = some l') (s' : Str) : l.scan (s ++ s') = l'.scan s' := by
  rw [scan_append, h, Option.bind_some]

end Mode

open Mode

/-! ## Every document is accepted -/

/-- A character that is none of the class differs from every one in it. -/
theorem ne_of_class {p : Char → Bool} {c d : Char} (hd : p d = true) (hc : p c = false) : d ≠ c := by
  rintro rfl
  exact absurd hd (by simp [hc])

theorem tag_step_of_ne {c : Char} (h : c ≠ '>' ∧ c ≠ '"' ∧ c ≠ '\'') : tag.step c = some tag := by
  simp [step, h]

theorem White.tag {s : Str} (h : White s) : ∀ c ∈ s, Mode.tag.step c = some .tag := fun c hc =>
  tag_step_of_ne ⟨ne_of_class (h c hc) rfl, ne_of_class (h c hc) rfl, ne_of_class (h c hc) rfl⟩

theorem isNameChar_of_start {c : Char} (h : isNameStart c = true) : isNameChar c = true := by
  unfold isNameChar inRanges
  rw [List.any_append]
  exact Bool.or_eq_true_iff.2 (.inr h)

theorem Name.chars {s : Str} (h : Name s) : ∀ c ∈ s, isNameChar c = true := by
  obtain ⟨c, r, rfl, hc, hr⟩ := h
  exact List.forall_mem_cons.2 ⟨isNameChar_of_start hc, hr⟩

theorem Name.tag {s : Str} (h : Name s) : ∀ c ∈ s, Mode.tag.step c = some .tag := fun c hc =>
  tag_step_of_ne ⟨ne_of_class (h.chars c hc) rfl, ne_of_class (h.chars c hc) rfl, ne_of_class (h.chars c hc) rfl⟩

theorem CharNumber.not_mem {base : Nat} {digit : Char → Option Nat} {ds : Str} {c q : Char}
    (h : CharNumber base digit ds c) (hq : digit q = none) : q ∉ ds := by
  intro hm
  exact absurd (h.digits q hm) (by simp [hq])

/-- A reference has no quotation mark in it. -/
theorem Reference.not_mem {r : Str} {c q : Char} (h : Reference r c) (hq : q = '"' ∨ q = '\'') : q ∉ r := by
  cases h with
  | entity h =>
    simp only [predefined, List.mem_cons, Prod.mk.injEq, List.not_mem_nil, or_false] at h
    rcases hq with rfl | rfl <;> rcases h with ⟨rfl, -⟩ | ⟨rfl, -⟩ | ⟨rfl, -⟩ | ⟨rfl, -⟩ | ⟨rfl, -⟩ <;> decide
  | decimal h =>
    have hds := h.not_mem (q := q) (by rcases hq with rfl | rfl <;> rfl)
    rcases hq with rfl | rfl <;> simp [hds]
  | hex h =>
    have hds := h.not_mem (q := q) (by rcases hq with rfl | rfl <;> rfl)
    rcases hq with rfl | rfl <;> simp [hds]

/-- The characters of a value do not end it. -/
theorem Chars.not_mem {quote : Char} (hquote : quote = '"' ∨ quote = '\'') {s v : Str} (h : Chars (inValue quote) s v) :
    quote ∉ s := by
  induction h with
  | nil => exact List.not_mem_nil
  | char h rest ih =>
    rename_i c d s v
    have hne : c ≠ quote := by
      rintro rfl
      simp [inValue] at h
    exact List.not_mem_cons_of_ne_of_not_mem hne.symm ih
  | reference h rest ih =>
    rw [List.mem_append, not_or]
    exact ⟨h.not_mem hquote, ih⟩

/-- A value is passed in a tag. -/
theorem Value.scan {s v : Str} (h : Value s v) : Mode.tag.scan s = some .valued := by
  obtain ⟨quote, hmem, w, rfl, hw⟩ := h
  have hquote : quote = '"' ∨ quote = '\'' := by simpa using hmem
  have hopen : Mode.tag.step quote = some (.value quote) := by rcases hquote with rfl | rfl <;> rfl
  have hinside : (Mode.value quote).scan w = some (.value quote) := scan_same fun c hc => by
    have hne : c ≠ quote := fun heq => hw.not_mem hquote (heq ▸ hc)
    simp [step, hne]
  rw [scan_cons hopen, scan_then hinside]
  simp [Mode.scan, step]

/-- Between the attributes of a tag a scan is in it, or behind a value. -/
def InTag (l : Mode) : Prop := l = .tag ∨ l = .valued

theorem InTag.white {l : Mode} (hl : InTag l) {c : Char} (h : isWhite c = true) : l.step c = some .tag := by
  rcases hl with rfl | rfl
  · exact White.tag (List.forall_mem_singleton.2 h) c List.mem_cons_self
  · simp [step, h]

theorem Attributes.scan {s : Str} {ps : List Attr} (h : Attributes s ps) {l : Mode} (hl : InTag l) :
    ∃ l', l.scan s = some l' ∧ InTag l' := by
  induction h generalizing l with
  | nil => exact ⟨l, rfl, hl⟩
  | cons ne hwhite hname hbefore hafter hval rest ih =>
    rename_i white name before after val v s ps
    obtain ⟨c, white, rfl⟩ := List.exists_cons_of_ne_nil ne
    obtain ⟨hc, hwhite⟩ := List.forall_mem_cons.1 hwhite
    obtain ⟨l', hl', hin⟩ := ih (l := .valued) (.inr rfl)
    refine ⟨l', ?_, hin⟩
    have hequals : Mode.tag.step '=' = some .tag := rfl
    rw [List.cons_append, scan_cons (hl.white hc), scan_then (scan_same (White.tag hwhite)), scan_then (scan_same hname.tag),
      scan_then (scan_same (White.tag hbefore)), scan_cons hequals, scan_then (scan_same (White.tag hafter)),
      scan_then hval.scan, hl']

/-- The inside of a tag is passed from its first character on. -/
theorem Tag.scan {s name : Str} {ps : List Attr} (h : Tag s name ps) : ∃ l, Mode.opening.scan s = some l ∧ InTag l := by
  obtain ⟨attrs, white, rfl, ⟨c, r, rfl, hc, hr⟩, hattrs, -, hwhite⟩ := h
  have hopen : Mode.opening.step c = some .tag := by
    have hbang : c ≠ '!' := ne_of_class hc rfl
    have hmark : c ≠ '?' := ne_of_class hc rfl
    simp [step, hbang, hmark]
  have hname : Name (c :: r) := ⟨c, r, rfl, hc, hr⟩
  obtain ⟨l, hl, hin⟩ := hattrs.scan (.inl rfl)
  rw [List.cons_append, scan_cons hopen, scan_then (scan_same (List.forall_mem_cons.1 hname.tag).2), scan_then hl]
  cases white with
  | nil => exact ⟨l, rfl, hin⟩
  | cons d white =>
    obtain ⟨hd, hwhite⟩ := List.forall_mem_cons.1 hwhite
    rw [scan_cons (hin.white hd)]
    exact ⟨.tag, scan_same (White.tag hwhite), .inl rfl⟩

theorem InTag.closes {l : Mode} (hl : InTag l) (s : Str) : l.scan ('>' :: s) = some .inside := by
  have hclose : l.step '>' = some .inside := by rcases hl with rfl | rfl <;> rfl
  rw [scan_cons hclose, scan_inside]

theorem Content.scan_root {root name : Str} {ps : List Attr} {children next : Tree}
    (h : Content root (.element name ps children next)) : Mode.misc.scan root = some .inside := by
  have hopen : Mode.misc.step '<' = some .opening := rfl
  cases h with
  | empty h =>
    obtain ⟨l, hl, hin⟩ := h.scan
    have hslash : l.step '/' = some .tag := by rcases hin with rfl | rfl <;> rfl
    rw [scan_cons hopen, scan_then hl, scan_cons hslash, InTag.closes (.inl rfl)]
  | element h =>
    obtain ⟨l, hl, hin⟩ := h.scan
    rw [scan_cons hopen, scan_then hl, hin.closes]

theorem Comment.scan {s : Str} (h : Comment s) : Mode.comment.scan s = some .comment := by
  induction h with
  | nil => rfl
  | char h rest ih =>
    rename_i c s
    have hstep : Mode.comment.step c = some .comment := by simp [step, h.2]
    rw [scan_cons hstep, ih]
  | dash h rest ih =>
    rename_i c s
    have hdash : Mode.comment.step '-' = some .dash := rfl
    have hstep : Mode.dash.step c = some .comment := by simp [step, h.2]
    rw [scan_cons hdash, scan_cons hstep, ih]

/-- In a processing instruction the scan knows whether a question mark was just passed. -/
theorem scan_instruction {s : Str} (h : ¬ "?>".toList <:+: s) {l : Mode} (hl : l = .pi ∨ l = .mark)
    (hhead : l = .mark → s.head? ≠ some '>') : l.scan (s ++ "?>".toList) = some .misc := by
  induction s generalizing l with
  | nil => rcases hl with rfl | rfl <;> rfl
  | cons c s ih =>
    have hstep : l.step c = some (if c = '?' then .mark else .pi) := by
      rcases hl with rfl | rfl
      · rfl
      · have hc : c ≠ '>' := by simpa using hhead rfl
        simp [step, hc]
    rw [List.cons_append, scan_cons hstep]
    apply ih
    · exact fun hs => h (hs.trans (List.suffix_cons c s).isInfix)
    · split <;> simp
    · intro hmark hgt
      have hc : c = '?' := by
        by_contra hne
        simp [hne] at hmark
      obtain ⟨r, rfl⟩ := List.head?_eq_some_iff.1 hgt
      rw [hc] at h
      exact h (List.prefix_append ['?', '>'] r).isInfix

theorem Misc.scan {s : Str} (h : Misc s) : Mode.misc.scan s = some .misc := by
  induction h with
  | nil => rfl
  | white h rest ih =>
    rename_i c s
    have hc : c ≠ '<' := ne_of_class h rfl
    have hstep : Mode.misc.step c = some .misc := by simp [step, hc]
    rw [scan_cons hstep, ih]
  | comment h rest ih =>
    have hopen : Mode.misc.scan "<!--".toList = some .comment := rfl
    have hclose : Mode.comment.scan "-->".toList = some .misc := rfl
    rw [scan_then hopen, scan_then h.scan, scan_then hclose, ih]
  | pi h rest ih =>
    obtain ⟨-, -, -, -, -, -, hs⟩ := h
    have hopen : Mode.misc.scan "<?".toList = some .pi := rfl
    rw [scan_then hopen, ← List.append_assoc, scan_then (scan_instruction hs (.inl rfl) nofun), ih]

theorem Setting.not_mem {name : Str} {ok : Str → Prop} {s : Str} (h : Setting name ok s) (hname : '?' ∉ name)
    (hok : ∀ v, ok v → '?' ∉ v) : '?' ∉ s := by
  obtain ⟨white, before, after, quote, v, -, hwhite, hbefore, hafter, hquote, hv, rfl⟩ := h
  have hwhites {w : Str} (hw : White w) : '?' ∉ w := fun hm => absurd (hw _ hm) (by decide)
  have hq : '?' ≠ quote := by rintro rfl; simp at hquote
  simp [hwhites hwhite, hname, hwhites hbefore, hwhites hafter, hq, hok v hv]

theorem Version.not_mem {v : Str} (h : Version v) : '?' ∉ v := by
  obtain ⟨ds, rfl, -, hds⟩ := h
  have hmark : '?' ∉ ds := fun hm => absurd (hds _ hm) (by decide)
  simp [hmark]

theorem Encoding.not_mem {v : Str} (h : Encoding v) : '?' ∉ v := by
  obtain ⟨c, r, rfl, hc, hr⟩ := h
  have hmark : '?' ∉ r := fun hm => absurd (hr _ hm) (by decide)
  have hne : '?' ≠ c := by
    rintro rfl
    exact absurd hc (by decide)
  simp [hmark, hne]

theorem Declaration.scan {s : Str} (h : Declaration s) : Mode.misc.scan s = some .misc := by
  obtain ⟨version, encoding, standalone, white, rfl, hversion, hencoding, hstandalone, hwhite⟩ := h
  have h1 : '?' ∉ version := hversion.not_mem (by decide) fun v hv => hv.not_mem
  have h2 : '?' ∉ encoding := by
    rcases hencoding with rfl | hencoding
    · exact List.not_mem_nil
    · exact hencoding.not_mem (by decide) fun v hv => hv.not_mem
  have h3 : '?' ∉ standalone := by
    rcases hstandalone with rfl | hstandalone
    · exact List.not_mem_nil
    · apply hstandalone.not_mem (by decide)
      intro v hv
      rcases List.mem_pair.1 hv with rfl | rfl <;> decide
  have h4 : '?' ∉ white := fun hm => absurd (hwhite _ hm) (by decide)
  have hbody : ¬ "?>".toList <:+: "xml".toList ++ (version ++ (encoding ++ (standalone ++ white))) := by
    intro hm
    have hmark : '?' ∈ "?>".toList := by decide
    have hmem := hm.subset hmark
    simp [h1, h2, h3, h4] at hmem
  have hscan := scan_instruction hbody (.inl rfl) nofun
  have hopen : Mode.misc.scan "<?".toList = some .pi := rfl
  have hsplit : "<?xml".toList ++ (version ++ (encoding ++ (standalone ++ (white ++ "?>".toList)))) =
      "<?".toList ++ ("xml".toList ++ (version ++ (encoding ++ (standalone ++ white))) ++ "?>".toList) := by simp
  rw [hsplit, scan_then hopen, hscan]

/-- A scan accepts every document. -/
theorem Document.scan {s : Str} {t : Tree} (h : Document s t) : Mode.misc.scan (endOfLines s) = some .inside := by
  obtain ⟨decl, before, root, after, name, ps, children, hs, hdecl, hbefore, rfl, hroot, -⟩ := h
  have hd : Mode.misc.scan decl = some .misc := by
    rcases hdecl with rfl | hdecl
    · rfl
    · exact hdecl.scan
  rw [hs, scan_then hd, scan_then hbefore.scan, scan_then hroot.scan_root, scan_inside]

/-- Only a carriage return is read as another character. -/
theorem endOfLines_append {s : Str} (h : '\r' ∉ s) (s' : Str) : endOfLines (s ++ s') = s ++ endOfLines s' := by
  induction s with
  | nil => rfl
  | cons c s ih =>
    obtain ⟨hc, hs⟩ := not_or.1 fun hm => h (List.mem_cons.2 hm)
    have hcons (r : Str) : endOfLines (c :: r) = c :: endOfLines r := by
      rw [endOfLines]
      · rintro r rfl
        exact absurd rfl hc
      · rintro rfl
        exact absurd rfl hc
    rw [List.cons_append, hcons, ih hs, List.cons_append]

/-- A text is no document if a scan rejects what it begins with. -/
theorem not_wellFormed_of_scan {s : Str} (h : Mode.misc.scan s = none) (hs : '\r' ∉ s) (s' : Str) : ¬ WellFormed (s ++ s') := by
  rintro ⟨t, ht⟩
  have hscan := ht.scan
  rw [endOfLines_append hs, scan_append, h] at hscan
  cases hscan

/-! ## Writing -/

def escapeChar (c : Char) : Str :=
  if c = '&' then "&amp;".toList
  else if c = '<' then "&lt;".toList
  else if c = '>' then "&gt;".toList
  else if c = '\r' then "&#13;".toList
  else [c]

/-- A text as it is written between tags. -/
def escape (s : Str) : Str := s.flatMap escapeChar

theorem Chars.entity (name : String) {c : Char} (h : (name.toList, c) ∈ predefined) {literal : Char → Option Char} {s v : Str}
    (rest : Chars literal s v) : Chars literal ('&' :: (name.toList ++ [';']) ++ s) (c :: v) :=
  .reference (.entity h) rest

theorem chars_escape {s : Str} (h : ∀ c ∈ s, isChar c) : Chars inText (escape s) s := by
  induction s with
  | nil => exact .nil
  | cons c s ih =>
    obtain ⟨hc, hs⟩ := List.forall_mem_cons.1 h
    have hcons : escape (c :: s) = escapeChar c ++ escape s := rfl
    rw [hcons, escapeChar]
    split
    case isTrue hamp => exact hamp ▸ .entity "amp" (by decide) (ih hs)
    split
    case isTrue hlt => exact hlt ▸ .entity "lt" (by decide) (ih hs)
    split
    case isTrue hgt => exact hgt ▸ .entity "gt" (by decide) (ih hs)
    split
    case isTrue hreturn =>
      have hnumber : CharNumber 10 decimalDigit "13".toList '\r' :=
        ⟨by decide, List.all_eq_true.1 rfl, by decide, by decide⟩
      exact hreturn ▸ .reference (.decimal hnumber) (ih hs)
    case isFalse hamp hlt hgt hreturn =>
      exact .char (if_pos ⟨hc, hlt, hamp⟩) (ih hs)

theorem not_mem_escape {q : Char} (hq : q = '>' ∨ q = '\r') (s : Str) : q ∉ escape s := by
  intro hm
  obtain ⟨c, -, hc⟩ := List.mem_flatMap.1 hm
  unfold escapeChar at hc
  split at hc
  · rcases hq with rfl | rfl <;> revert hc <;> decide
  split at hc
  · rcases hq with rfl | rfl <;> revert hc <;> decide
  split at hc
  · rcases hq with rfl | rfl <;> revert hc <;> decide
  split at hc
  · rcases hq with rfl | rfl <;> revert hc <;> decide
  · rename_i hgt hreturn
    obtain rfl := List.mem_singleton.1 hc
    exact hq.elim hgt hreturn

theorem not_mark_of_not_mem {s : Str} (h : '>' ∉ s) : ¬ "]]>".toList <:+: s := by
  intro hm
  have hgt : '>' ∈ "]]>".toList := by decide
  exact h (hm.subset hgt)

/-- What is escaped reads as itself. -/
theorem text_escape {s : Str} (h : ∀ c ∈ s, isChar c) : Text (escape s) s :=
  ⟨chars_escape h, not_mark_of_not_mem (not_mem_escape (.inl rfl) s)⟩

theorem chars_of_literal {literal : Char → Option Char} {s : Str} (h : ∀ c ∈ s, literal c = some c) : Chars literal s s := by
  induction s with
  | nil => exact .nil
  | cons c s ih =>
    obtain ⟨hc, hs⟩ := List.forall_mem_cons.1 h
    exact .char hc (ih hs)

/-- A character that reads as itself between tags, and ends nothing there. -/
def isPlain (c : Char) : Bool := isChar c && c != '<' && c != '&' && c != '>'

theorem text_of_plain {s : Str} (h : s.all isPlain = true) : Text s s := by
  have hplain (c : Char) (hc : c ∈ s) : isPlain c = true := List.all_eq_true.1 h c hc
  refine ⟨chars_of_literal fun c hc => ?_, not_mark_of_not_mem fun hm => absurd (hplain _ hm) (by decide)⟩
  have hp := hplain c hc
  simp only [isPlain, Bool.and_eq_true, bne_iff_ne] at hp
  exact if_pos ⟨hp.1.1.1, hp.1.1.2, hp.1.2⟩

theorem value_of_plain {s : Str} (h : (s.all fun c => isPlain c && c != '"' && !isWhite c) = true) :
    Value ('"' :: (s ++ ['"'])) s := by
  refine ⟨'"', List.mem_cons_self, s, rfl, chars_of_literal fun c hc => ?_⟩
  have hp := List.all_eq_true.1 h c hc
  simp only [isPlain, Bool.and_eq_true, bne_iff_ne, Bool.not_eq_true'] at hp
  obtain ⟨⟨⟨⟨⟨hchar, hlt⟩, hamp⟩, -⟩, hquote⟩, hwhite⟩ := hp
  rw [inValue, if_pos ⟨hchar, hlt, hamp, hquote⟩, hwhite]
  rfl

def isName : Str → Bool
  | [] => false
  | c :: r => isNameStart c && r.all isNameChar

theorem name_of_isName {s : Str} (h : isName s = true) : Name s := by
  cases s with
  | nil => cases h
  | cons c r =>
    obtain ⟨hc, hr⟩ := Bool.and_eq_true_iff.1 h
    exact ⟨c, r, rfl, hc, List.all_eq_true.1 hr⟩

theorem tag_of_name {name : Str} (h : Name name) : Tag name name [] :=
  ⟨[], [], by simp, h, .nil, List.nodup_nil, nofun⟩

/-- A text below an element, if there is one. -/
def textTree (v : Str) : Tree := if v = [] then .null else .leaf .text v .null

theorem content_textTree (v : Str) : (textTree v).content = v := by
  unfold textTree
  split
  case isTrue h => exact h.symm
  case isFalse => exact List.append_nil v

theorem texts_textTree (key v : Str) : texts key (textTree v).items = [] := by
  unfold textTree
  split
  · rfl
  · exact texts_items_leaf key .text v .null

theorem Text.content {s v : Str} (h : Text s v) : Content s (textTree v) := by
  obtain ⟨hchars, hmark⟩ := h
  cases hchars with
  | nil => exact .nil
  | char hc rest =>
    rename_i c d s v
    have hcontent := Content.text (List.cons_ne_nil c s) ⟨.char hc rest, hmark⟩ (by simp) .nil
    rwa [List.append_nil] at hcontent
  | reference hr rest =>
    rename_i r c s v
    have hne : r ++ s ≠ [] := by cases hr <;> exact List.cons_ne_nil _ _
    have hcontent := Content.text hne ⟨.reference hr rest, hmark⟩ (by simp) .nil
    rwa [List.append_nil] at hcontent

end Xml
