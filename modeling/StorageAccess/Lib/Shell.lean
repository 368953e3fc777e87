import Mathlib.Algebra.GroupWithZero.Nat
import StorageAccess.Lib.Joined
import StorageAccess.Lib.Path
/-!
# How a shell reads a command line

`words` reads a line as `sh` does, as far as the line alone decides it: blanks end a
word, quotes and backslashes are taken away, `#` starts a comment. A line with an
operator, an expansion, a file name pattern or an open quote has no words that the
line alone decides; a `[` begins a pattern only where a `]` ends it. What is put into
a line between blanks is read as one word, as it stands, exactly when it is plain.
-/

open Posix (Str untilNul untilNul_eq_self_iff)

namespace Shell

def blank (c : Char) : Bool := c = ' ' || c = '\t'

/-- Operators, expansions, and the patterns that are one character. -/
def special (c : Char) : Bool := "|&;<>()\n$`*?".toList.contains c

/-- What quotes: the two quotation marks and the backslash. -/
def quoting (c : Char) : Bool := "'\"\\".toList.contains c

/-- The character stands for itself wherever it is in a word, except as the first. -/
def ordinary (c : Char) : Bool := !blank c && !special c && !quoting c

theorem ordinary_iff {c : Char} : ordinary c = true ↔ c ∉ " \t|&;<>()\n$`*?'\"\\".toList := by
  simp [ordinary, blank, special, quoting, and_assoc]

theorem ordinary_of_isDigit {c : Char} (h : c.isDigit = true) : ordinary c = true := by
  have hdigits : (" \t|&;<>()\n$`*?'\"\\".toList.any Char.isDigit) = false := by decide
  exact ordinary_iff.2 fun hm => List.any_eq_false.1 hdigits c hm h

/-- How far a word is in a pattern in square brackets: not at all, behind the `[`, behind
`[!`, or at what may be followed by the `]` that ends it. -/
inductive Bracket
  | out
  | first
  | negated
  | inside
  deriving DecidableEq, Repr

namespace Bracket

/-- A character goes on with a pattern, and a `/` breaks it off. The first one in the brackets
stands for itself whatever it is; a `]` that ends a pattern has no result. -/
def next : Bracket → Char → Option Bracket
  | .out, c => some (if c = '[' then .first else .out)
  | .first, c => some (if c = '/' then .out else if c = '!' then .negated else .inside)
  | .negated, c => some (if c = '/' then .out else .inside)
  | .inside, c => if c = ']' then none else some (if c = '/' then .out else .inside)

/-- A quoted character neither begins nor ends a pattern. -/
def quoted : Bracket → Char → Bracket
  | .out, _ => .out
  | _, c => if c = '/' then .out else .inside

/-- Where a text leads. -/
def along (b : Bracket) (text : Str) : Option Bracket := text.foldlM next b

@[simp]
theorem along_nil (b : Bracket) : b.along [] = some b := rfl

theorem along_cons (b : Bracket) (c : Char) (text : Str) : b.along (c :: text) = (b.next c).bind (along · text) :=
  List.foldlM_cons

theorem along_append (b : Bracket) (s t : Str) : b.along (s ++ t) = (b.along s).bind (along · t) :=
  List.foldlM_append

/-- Only a `]` ends a pattern. -/
theorem isSome_along {text : Str} (h : ']' ∉ text) (b : Bracket) : (b.along text).isSome = true := by
  induction text generalizing b with
  | nil => rfl
  | cons c text ih =>
    obtain ⟨hc, htext⟩ := List.ne_and_not_mem_of_not_mem_cons h
    rw [along_cons]
    cases b with
    | out | first | negated => exact ih htext _
    | inside =>
      rw [next, if_neg (Ne.symm hc)]
      exact ih htext _

theorem isSome_along_append {b : Bracket} {s t : Str} (ht : ']' ∉ t) :
    (b.along (s ++ t)).isSome = true ↔ (b.along s).isSome = true := by
  rw [along_append]
  cases b.along s with
  | none => rfl
  | some b' => exact iff_of_true (isSome_along ht b') rfl

end Bracket

/-- What the reader is in: a word so far or the space between words, a comment,
quotes, or what a backslash began. -/
inductive Mode
  | plain (word : Option Str)
  | comment
  | single (word : Str)
  | double (word : Str)
  | escaped (word : Option Str)
  | doubleEscaped (word : Str)

/-- The words read so far, how far the word being read is in a pattern, and what the reader is in. -/
abbrev Reader := List Str × Bracket × Mode

def step : Reader → Char → Option Reader
  | (ws, b, .plain w), c =>
    if blank c then some (ws ++ w.toList, .out, .plain none)
    else if special c then none
    -- a tilde that begins a word is expanded
    else if c = '~' ∧ w = none then none
    else if c = '#' ∧ w = none then some (ws, b, .comment)
    else if c = Char.ofNat 39 then some (ws, b, .single (w.getD []))
    else if c = '"' then some (ws, b, .double (w.getD []))
    else if c = '\\' then some (ws, b, .escaped w)
    else (b.next c).map fun b => (ws, b, .plain (some (w.getD [] ++ [c])))
  | (ws, b, .comment), c => if c = '\n' then none else some (ws, b, .comment)
  | (ws, b, .single w), c =>
    if c = Char.ofNat 39 then some (ws, b, .plain (some w)) else some (ws, b.quoted c, .single (w ++ [c]))
  | (ws, b, .double w), c =>
    if c = '"' then some (ws, b, .plain (some w))
    else if c = '\\' then some (ws, b, .doubleEscaped w)
    else if c ∈ "$`".toList then none
    else some (ws, b.quoted c, .double (w ++ [c]))
  -- a backslash joins two lines, and makes any other character ordinary
  | (ws, b, .escaped w), c =>
    if c = '\n' then some (ws, b, .plain w) else some (ws, b.quoted c, .plain (some (w.getD [] ++ [c])))
  | (ws, b, .doubleEscaped w), c =>
    if c = '\n' then some (ws, b, .double w)
    else if c ∈ "$`\"\\".toList then some (ws, b.quoted c, .double (w ++ [c]))
    else some (ws, (b.quoted '\\').quoted c, .double (w ++ ['\\', c]))

/-- The words at the end of the line; a quote that is still open has none. -/
def finish : Reader → Option (List Str)
  | (ws, _, .plain w) => some (ws ++ w.toList)
  | (ws, _, .comment) => some ws
  | (ws, _, .escaped w) => some (ws ++ [w.getD [] ++ ['\\']])
  | _ => none

def read : Reader → Str → Option (List Str)
  | st, [] => finish st
  | st, c :: cs => (step st c).bind fun st' => read st' cs

def words (line : Str) : Option (List Str) := read ([], .out, .plain none) line

example : words "cp -r 'my file' a\\ b # both".toList =
    some ["cp".toList, "-r".toList, "my file".toList, "a b".toList] := by decide

example : words "rm a;b".toList = none := by decide

example : words "rm a[b a[]c a\"[b\"] a[b/c]".toList =
    some ["rm".toList, "a[b".toList, "a[]c".toList, "a[b]".toList, "a[b/c]".toList] := by decide

example : words "rm a[!]]".toList = none := by decide

/-- A word that stands in a line as it is. -/
structure PlainWord (w : Str) : Prop where
  nonempty : w ≠ []
  first : w.head? ≠ some '#' ∧ w.head? ≠ some '~'
  chars : ∀ c ∈ w, ordinary c = true
  pattern : (Bracket.out.along w).isSome = true

/-! ## Reading loses characters -/

/-- The characters that words need, with a blank after each. -/
def cost (ws : List Str) : Nat := (ws.map fun w => w.length + 1).sum

/-- The characters that are kept so far. -/
def kept : Reader → Nat
  | (ws, _, .plain w) => cost ws + (w.getD []).length
  | (ws, _, .comment) => cost ws
  | (ws, _, .single w) | (ws, _, .double w) => cost ws + w.length
  | (ws, _, .escaped w) => cost ws + (w.getD []).length + 1
  | (ws, _, .doubleEscaped w) => cost ws + w.length + 1

/-- Outside quotes a character ends a word, is a backslash, is ordinary, or is lost. -/
theorem step_plain {ds : List Str} {b : Bracket} {w : Option Str} {c : Char} {st : Reader}
    (h : step (ds, b, .plain w) c = some st) :
    blank c = true ∧ st = (ds ++ w.toList, .out, .plain none) ∨
    c = '\\' ∧ st = (ds, b, .escaped w) ∨
    ordinary c = true ∧ (w = none → c ≠ '#' ∧ c ≠ '~') ∧
      (∃ b', b.next c = some b' ∧ st = (ds, b', .plain (some (w.getD [] ++ [c])))) ∨
    kept st ≤ kept (ds, b, .plain w) := by
  simp only [step] at h
  split at h
  case isTrue hblank => cases h; exact .inl ⟨hblank, rfl⟩
  case isFalse hblank =>
  split at h
  · cases h
  case isFalse hspecial =>
  split at h
  · cases h
  case isFalse htilde =>
  -- a comment, and then either quotation mark, adds no character
  split at h
  · cases h
    exact .inr (.inr (.inr (by simp [kept])))
  case isFalse hhash =>
  split at h
  · cases h
    exact .inr (.inr (.inr (by simp [kept])))
  case isFalse hsingle =>
  split at h
  · cases h
    exact .inr (.inr (.inr (by simp [kept])))
  case isFalse hdouble =>
  split at h
  case isTrue hback => cases h; exact .inr (.inl ⟨hback, rfl⟩)
  case isFalse hback =>
    obtain ⟨b', hb, rfl⟩ := Option.map_eq_some_iff.1 h
    have hquoting : quoting c = false := by
      simpa [quoting] using ⟨hsingle, hdouble, hback⟩
    refine .inr (.inr (.inl ⟨?_, fun hw => ⟨fun he => hhash ⟨he, hw⟩, fun he => htilde ⟨he, hw⟩⟩, b', hb, rfl⟩))
    simp [ordinary, hblank, hspecial, hquoting]

/-- One character adds at most one. -/
theorem kept_step {st st' : Reader} {c : Char} (h : step st c = some st') : kept st' ≤ kept st + 1 := by
  obtain ⟨ws, b, m⟩ := st
  cases m with
  | plain w =>
    rcases step_plain h with ⟨-, rfl⟩ | ⟨-, rfl⟩ | ⟨-, -, b', -, rfl⟩ | hkept
    · cases w <;> simp [kept, cost, Nat.add_assoc]
    · exact Nat.le_refl _
    · simp [kept, Nat.add_assoc]
    · exact Nat.le_succ_of_le hkept
  | comment =>
    simp only [step] at h
    split at h <;> cases h
    exact Nat.le_succ _
  | single w | double w | escaped w | doubleEscaped w =>
    simp only [step] at h
    repeat' split at h
    all_goals cases h
    all_goals simp [kept]
    all_goals omega

theorem cost_finish {st : Reader} {ws : List Str} (h : finish st = some ws) : cost ws ≤ kept st + 1 := by
  obtain ⟨vs, b, m⟩ := st
  cases m with
  | plain w => cases h; cases w <;> simp [kept, cost, Nat.add_assoc]
  | comment => cases h; exact Nat.le_succ _
  | escaped w => cases h; simp [kept, cost]; omega
  | single w | double w | doubleEscaped w => cases h

/-- The words of a line need no more characters than the line has. -/
theorem cost_read {st : Reader} {line : Str} {ws : List Str} (h : read st line = some ws) :
    cost ws ≤ kept st + line.length + 1 := by
  induction line generalizing st with
  | nil => exact cost_finish h
  | cons c cs ih =>
    obtain ⟨st', hstep, hread⟩ := Option.bind_eq_some_iff.1 h
    have hkept := kept_step hstep
    have hcost := ih hread
    rw [List.length_cons]
    omega

/-! ## Plain words -/

/-- The character after a backslash makes up for it at most. -/
theorem kept_escaped {ds : List Str} {b : Bracket} {w : Option Str} {c : Char} {st : Reader}
    (h : step (ds, b, .escaped w) c = some st) : kept st ≤ kept (ds, b, .plain w) + 1 := by
  simp only [step] at h
  split at h
  · cases h
    exact Nat.le_succ _
  · cases h
    simp [kept, Nat.add_assoc]

/-- The words so far, with the one being read. -/
theorem plain_toList {ds : List Str} {w : Option Str} (hds : ∀ d ∈ ds, PlainWord d) (hw : ∀ v, w = some v → PlainWord v) :
    ∀ d ∈ ds ++ w.toList, PlainWord d := by
  intro d hd
  rcases List.mem_append.1 hd with hd | hd
  · exact hds d hd
  · exact hw d (Option.mem_toList.1 hd)

/-- An ordinary character that ends no pattern goes on with a plain word, or begins one. -/
theorem PlainWord.snoc {w : Option Str} {c : Char} (hw : ∀ v, w = some v → PlainWord v) (hc : ordinary c = true)
    (hfirst : w = none → c ≠ '#' ∧ c ≠ '~') {b : Bracket} (hb : Bracket.out.along (w.getD [] ++ [c]) = some b) :
    PlainWord (w.getD [] ++ [c]) := by
  have hpattern := Option.isSome_iff_exists.2 ⟨b, hb⟩
  cases w with
  | none =>
    have hne := hfirst rfl
    exact ⟨by simp, by simpa using hne, by simpa using hc, hpattern⟩
  | some v =>
    have hv := hw v rfl
    obtain ⟨d, v, rfl⟩ := List.exists_cons_of_ne_nil hv.nonempty
    refine ⟨by simp, by simpa using hv.first, fun c' hc' => ?_, hpattern⟩
    rcases List.mem_append.1 hc' with hc' | hc'
    · exact hv.chars c' hc'
    · exact List.mem_singleton.1 hc' ▸ hc

/-- A line of which no character is lost has plain words only. -/
theorem plain_of_cost {ds ws : List Str} {b : Bracket} {w : Option Str} {line : Str}
    (h : read (ds, b, .plain w) line = some ws) (hall : kept (ds, b, .plain w) + line.length + 1 ≤ cost ws)
    (hlast : line.getLast? ≠ some '\\') (hds : ∀ d ∈ ds, PlainWord d) (hw : ∀ v, w = some v → PlainWord v)
    (hb : Bracket.out.along (w.getD []) = some b) : ∀ v ∈ ws, PlainWord v := by
  induction line generalizing ds b w with
  | nil =>
    cases h
    exact plain_toList hds hw
  | cons c cs ih =>
    obtain ⟨st, hstep, hread⟩ := Option.bind_eq_some_iff.1 h
    rw [List.length_cons] at hall
    have hlast' : cs.getLast? ≠ some '\\' := by
      cases cs with
      | nil => nofun
      | cons d cs => rwa [List.getLast?_cons_cons] at hlast
    -- the words cost all that the line has, so no step may keep less than it reads
    have hcost := cost_read hread
    rcases step_plain hstep with ⟨-, rfl⟩ | ⟨rfl, rfl⟩ | ⟨hc, hfirst, b', hnext, rfl⟩ | hkept
    · -- a blank ends a word; one more blank would be lost
      cases w with
      | none =>
        simp only [kept, Option.toList_none, List.append_nil, Option.getD_none, List.length_nil] at hcost hall
        omega
      | some v =>
        refine ih hread ?_ hlast' (plain_toList hds hw) nofun rfl
        simp [kept, cost] at hall ⊢
        omega
    · -- a backslash takes part in no word, unless the line ends with it
      cases cs with
      | nil => exact absurd rfl hlast
      | cons d cs =>
        obtain ⟨st, hstep, hread⟩ := Option.bind_eq_some_iff.1 hread
        have hkept := kept_escaped hstep
        have hcost := cost_read hread
        have hsame : kept (ds, b, .plain w) = cost ds + (w.getD []).length := rfl
        rw [List.length_cons] at hall
        omega
    · have halong : Bracket.out.along (w.getD [] ++ [c]) = some b' := by
        rw [Bracket.along_append, hb, Option.bind_some, Bracket.along_cons, hnext]
        rfl
      refine ih hread ?_ hlast' hds ?_ halong
      · simp only [kept, Option.getD_some, List.length_append, List.length_singleton] at hall ⊢
        omega
      · rintro v ⟨rfl⟩
        exact .snoc hw hc hfirst halong
    · omega

theorem step_ordinary {ds : List Str} {b b' : Bracket} {w : Option Str} {c : Char} (hc : ordinary c = true)
    (hfirst : w = none → c ≠ '#' ∧ c ≠ '~') (hb : b.next c = some b') :
    step (ds, b, .plain w) c = some (ds, b', .plain (some (w.getD [] ++ [c]))) := by
  simp only [ordinary, Bool.and_eq_true, Bool.not_eq_true'] at hc
  obtain ⟨⟨hblank, hspecial⟩, hquoting⟩ := hc
  have hquotes : c ≠ Char.ofNat 39 ∧ c ≠ '"' ∧ c ≠ '\\' := by simpa [quoting] using hquoting
  have hhash : ¬ (c = '#' ∧ w = none) := fun h => (hfirst h.2).1 h.1
  have htilde : ¬ (c = '~' ∧ w = none) := fun h => (hfirst h.2).2 h.1
  simp only [step, hblank, hspecial, Bool.false_eq_true, if_false, if_neg hhash, if_neg htilde, if_neg hquotes.1,
    if_neg hquotes.2.1, if_neg hquotes.2.2, hb, Option.map_some]

/-- Ordinary characters that end no pattern go on with a word. -/
theorem read_chars {ds : List Str} {b b' : Bracket} {v text : Str} (h : ∀ c ∈ text, ordinary c = true)
    (hb : b.along text = some b') (rest : Str) :
    read (ds, b, .plain (some v)) (text ++ rest) = read (ds, b', .plain (some (v ++ text))) rest := by
  induction text generalizing v b with
  | nil =>
    cases hb
    simp
  | cons c text ih =>
    rw [Bracket.along_cons] at hb
    obtain ⟨b₁, hnext, hb⟩ := Option.bind_eq_some_iff.1 hb
    rw [List.cons_append, read, step_ordinary (w := some v) (h c List.mem_cons_self) (fun hv => by cases hv) hnext,
      Option.bind_some, Option.getD_some, ih (fun d hd => h d (List.mem_cons_of_mem _ hd)) hb, List.append_assoc]
    rfl

theorem PlainWord.read {w : Str} (hw : PlainWord w) (ds : List Str) (rest : Str) :
    ∃ b, Shell.read (ds, .out, .plain none) (w ++ rest) = Shell.read (ds, b, .plain (some w)) rest := by
  obtain ⟨b, hb⟩ := Option.isSome_iff_exists.1 hw.pattern
  refine ⟨b, ?_⟩
  obtain ⟨c, w, rfl⟩ := List.exists_cons_of_ne_nil hw.nonempty
  rw [Bracket.along_cons] at hb
  obtain ⟨b₁, hnext, hb⟩ := Option.bind_eq_some_iff.1 hb
  have hfirst : c ≠ '#' ∧ c ≠ '~' := by simpa using hw.first
  rw [List.cons_append, Shell.read, step_ordinary (hw.chars c List.mem_cons_self) (fun _ => hfirst) hnext,
    Option.bind_some, Option.getD_none, read_chars (fun d hd => hw.chars d (List.mem_cons_of_mem _ hd)) hb]
  rfl

/-- Plain words with a blank between them are read as they are. -/
theorem read_join {ws : List Str} (hne : ws ≠ []) (hws : ∀ w ∈ ws, PlainWord w) (ds : List Str) :
    read (ds, .out, .plain none) (Joined.join ' ' ws) = some (ds ++ ws) := by
  induction ws generalizing ds with
  | nil => exact absurd rfl hne
  | cons w ws ih =>
    have hw := hws w List.mem_cons_self
    by_cases hrest : ws = []
    · subst hrest
      obtain ⟨b, hread⟩ := hw.read ds []
      rw [List.append_nil] at hread
      rw [Joined.join_singleton, hread]
      rfl
    · obtain ⟨b, hread⟩ := hw.read ds (' ' :: Joined.join ' ' ws)
      have hblank : step (ds, b, .plain (some w)) ' ' = some (ds ++ [w], .out, .plain none) := rfl
      rw [Joined.join_cons hrest, hread, read, hblank, Option.bind_some,
        ih hrest fun v hv => hws v (List.mem_cons_of_mem _ hv), List.append_assoc]
      rfl

theorem cost_eq_length_join {ws : List Str} (hne : ws ≠ []) : cost ws = (Joined.join ' ' ws).length + 1 := by
  induction ws with
  | nil => exact absurd rfl hne
  | cons w ws ih =>
    by_cases hrest : ws = []
    · subst hrest
      simp [cost, Joined.join]
    · have hcost : cost (w :: ws) = w.length + 1 + cost ws := rfl
      rw [Joined.join_cons hrest, hcost, ih hrest, List.length_append, List.length_cons]
      omega

/-- Words with a blank between them are read as they are exactly when they are plain. -/
theorem words_join_iff {ws : List Str} (hne : ws ≠ []) (hlast : (Joined.join ' ' ws).getLast? ≠ some '\\') :
    words (Joined.join ' ' ws) = some ws ↔ ∀ w ∈ ws, PlainWord w := by
  constructor
  · intro h
    refine plain_of_cost h ?_ hlast (by simp) nofun rfl
    rw [cost_eq_length_join hne]
    simp [kept, cost]
  · intro h
    exact read_join hne h []

/-! ## Lines that end at a NUL -/

/-- The words of a line that is handed to the shell as a C string. -/
def command (line : Str) : Option (List Str) := words (untilNul line)

theorem command_join_iff {ws : List Str} (hne : ws ≠ []) (hlast : (Joined.join ' ' ws).getLast? ≠ some '\\') :
    command (Joined.join ' ' ws) = some ws ↔ ∀ w ∈ ws, PlainWord w ∧ Char.ofNat 0 ∉ w := by
  have hmem : Char.ofNat 0 ∈ Joined.join ' ' ws ↔ ∃ w ∈ ws, Char.ofNat 0 ∈ w := Joined.mem_join_iff (by decide)
  constructor
  · intro h
    -- the line is as long as its words need, so nothing of it is cut off
    have hcost := cost_read h
    have hprefix : untilNul (Joined.join ' ' ws) <+: Joined.join ' ' ws := List.takeWhile_prefix _
    have hlen : (Joined.join ' ' ws).length ≤ (untilNul (Joined.join ' ' ws)).length := by
      rw [cost_eq_length_join hne] at hcost
      simpa [kept, cost] using hcost
    have hself : untilNul (Joined.join ' ' ws) = Joined.join ' ' ws := hprefix.eq_of_length_le hlen
    have hnul := untilNul_eq_self_iff.1 hself
    rw [command, hself] at h
    exact fun w hw => ⟨(words_join_iff hne hlast).1 h w hw, fun hm => hnul (hmem.2 ⟨w, hw, hm⟩)⟩
  · intro h
    have hnul : Char.ofNat 0 ∉ Joined.join ' ' ws := fun hm => by
      obtain ⟨w, hw, hm⟩ := hmem.1 hm
      exact (h w hw).2 hm
    rw [command, untilNul_eq_self_iff.2 hnul]
    exact (words_join_iff hne hlast).2 fun w hw => (h w hw).1

end Shell
