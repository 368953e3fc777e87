import StorageAccess.Lib.Fields
import StorageAccess.Model.UpnpOperation
/-!
# Splitting a path of a media server

The loop cuts at the next `/`, and after an empty component one character more.
Where the slashes of a run are odd this drops slashes in pairs; where they are even
it drops the first character of the next component, or runs past the end.
-/

open Posix

namespace StorageAccess

/-! ## Looking for one character -/

theorem find_singleton_nil (c : Char) : find [c] [] = none := rfl

theorem find_singleton_cons (c a : Char) (s : Str) :
    find [c] (a :: s) = if a = c then some 0 else (find [c] s).map (· + 1) := by
  by_cases h : a = c
  · simp [find, List.findIdx?_cons, h]
  · simp [find, List.findIdx?_cons, h, Ne.symm h]

theorem find_singleton_of_not_mem {c : Char} {s : Str} (hs : c ∉ s) : find [c] s = none := by
  induction s with
  | nil => rfl
  | cons a s ih =>
    obtain ⟨ha, hs⟩ := not_or.1 (List.mem_cons.not.1 hs)
    rw [find_singleton_cons, if_neg (Ne.symm ha), ih hs]
    rfl

theorem find_singleton_append {c : Char} {w : Str} (hw : c ∉ w) (s : Str) : find [c] (w ++ c :: s) = some w.length := by
  induction w with
  | nil => simp [find_singleton_cons]
  | cons a w ih =>
    obtain ⟨ha, hw⟩ := not_or.1 (List.mem_cons.not.1 hw)
    rw [List.cons_append, find_singleton_cons, if_neg (Ne.symm ha), ih hw]
    rfl

namespace UpnpOperation

/-! ## One turn of the loop -/

/-- The rest of the loop, once the text up to a `/` was cut off. -/
def splitRest (rest : Str) (names : List Str) : List Str × Bool :=
  let pos := find ['/'] rest
  let val := rest.take (pos.getD rest.length)
  if val ≠ [] then splitLoop rest pos (names ++ [val])
  else splitLoop rest (some (match pos with | some pos => pos + 1 | none => 0)) names

theorem splitLoop_none (temp : Str) (names : List Str) : splitLoop temp none names = (names, true) := by
  rw [splitLoop]

theorem splitLoop_some (temp : Str) (pos : Nat) (names : List Str) :
    splitLoop temp (some pos) names =
      if pos + 1 ≤ temp.length then splitRest (temp.drop (pos + 1)) names else (names, false) := by
  rw [splitLoop]
  split
  · rfl
  · rfl

/-- The end of the text makes the position 0, and the next cut throws. -/
theorem splitRest_nil (names : List Str) : splitRest [] names = (names, false) := by
  rw [splitRest]
  simp [find_singleton_nil, splitLoop_some]

theorem splitRest_word {w : Str} (hw : '/' ∉ w) (hne : w ≠ []) (names : List Str) :
    splitRest w names = (names ++ [w], true) := by
  rw [splitRest]
  simp [find_singleton_of_not_mem hw, hne, splitLoop_none]

theorem splitRest_word_append {w : Str} (hw : '/' ∉ w) (hne : w ≠ []) (r : Str) (names : List Str) :
    splitRest (w ++ '/' :: r) names = splitRest r (names ++ [w]) := by
  rw [splitRest]
  simp [find_singleton_append hw, hne, splitLoop_some]

/-- Two slashes that are left at the end are one too many. -/
theorem splitRest_slash (names : List Str) : splitRest ['/'] names = (names, false) := by
  rw [splitRest]
  simp [find_singleton_cons, splitLoop_some]

/-- An empty component takes the character behind its `/` with it. -/
theorem splitRest_slash_cons (c : Char) (r : Str) (names : List Str) : splitRest ('/' :: c :: r) names = splitRest r names := by
  rw [splitRest]
  simp [find_singleton_cons, splitLoop_some]

/-! ## The whole loop -/

/-- One case for each turn the loop can take. -/
theorem splitRest_induction {P : Str → Prop} (nil : P []) (slash : P ['/']) (skip : ∀ c r, P r → P ('/' :: c :: r))
    (word : ∀ w, '/' ∉ w → w ≠ [] → P w) (next : ∀ w r, '/' ∉ w → w ≠ [] → P r → P (w ++ '/' :: r)) (rest : Str) :
    P rest := by
  induction h : rest.length using Nat.strong_induction_on generalizing rest with
  | _ n ih =>
    by_cases hne : rest = []
    · exact hne ▸ nil
    rcases Fields.cases_word '/' rest hne with ⟨r, rfl⟩ | hw | ⟨w, r, hw, hslash, rfl⟩
    · cases r with
      | nil => exact slash
      | cons c r => exact skip c r (ih r.length (by simp only [← h, List.length_cons]; omega) r rfl)
    · exact word rest hw hne
    · exact next w r hslash hw (ih r.length (by simp [← h]; omega) r rfl)

/-- The names have no more characters than the text has besides slashes. -/
theorem length_splitRest_le (rest : Str) (names : List Str) :
    (splitRest rest names).1.flatten.length ≤ names.flatten.length + (rest.filter (· ≠ '/')).length := by
  induction rest using splitRest_induction generalizing names with
  | nil => rw [splitRest_nil]; simp
  | slash => rw [splitRest_slash]; simp
  | skip c r ih =>
    rw [splitRest_slash_cons]
    refine (ih names).trans ?_
    have hle : (r.filter (· ≠ '/')).length ≤ ((c :: r).filter (· ≠ '/')).length :=
      ((List.sublist_cons_self c r).filter _).length_le
    simpa using hle
  | word w hw hne =>
    rw [splitRest_word hw hne, ← Fields.flatten_fields, Fields.fields_word hw hne]
    simp
  | next w r hw hne ih =>
    rw [splitRest_word_append hw hne, ← Fields.flatten_fields, Fields.fields_word_append hw hne]
    refine (ih (names ++ [w])).trans ?_
    rw [← Fields.flatten_fields]
    simp [Nat.add_assoc]

/-- Behind a slash, a text that does not end in one is split into its components
exactly when all runs of slashes are odd. -/
theorem splitRest_iff (rest : Str) (hne : rest ≠ []) (hlast : rest.getLast? ≠ some '/') (names : List Str) :
    splitRest rest names = (names ++ Fields.fields '/' rest, true) ↔ Fields.OddRuns '/' 1 rest := by
  induction rest using splitRest_induction generalizing names with
  | nil => exact absurd rfl hne
  | slash => exact absurd rfl hlast
  | skip c r ih =>
    rw [splitRest_slash_cons, Fields.fields_cons_sep]
    by_cases hc : c = '/'
    · subst hc
      have hr : r ≠ [] := by rintro rfl; exact hlast rfl
      have hlast' : r.getLast? ≠ some '/' := by
        rwa [List.getLast?_cons_cons, List.getLast?_cons_of_ne_nil hr] at hlast
      rw [Fields.fields_cons_sep, ih hr hlast' names]
      exact (Fields.oddRuns_add_two one_ne_zero r).symm
    · -- the character that is dropped is missing from the names
      refine iff_of_false (fun h => ?_) (Fields.not_oddRuns_two hc r)
      have hle := length_splitRest_le r names
      rw [h, List.flatten_append, List.length_append, Fields.flatten_fields, List.filter_cons_of_pos (by simpa using hc),
        List.length_cons] at hle
      omega
  | word w hw hne' =>
    rw [splitRest_word hw hne', Fields.fields_word hw hne']
    exact iff_of_true rfl (Fields.oddRuns_word hw hne')
  | next w r hw hne' ih =>
    have hr : r ≠ [] := by rintro rfl; exact hlast (by simp)
    have hlast' : r.getLast? ≠ some '/' := by
      rwa [List.getLast?_append_of_ne_nil _ (by simp), List.getLast?_cons_of_ne_nil hr] at hlast
    rw [splitRest_word_append hw hne', Fields.fields_word_append hw hne', Fields.oddRuns_word_append hw hne',
      ← ih hr hlast' (names ++ [w]), List.append_assoc, List.singleton_append]

theorem splitPath_cons (rest : Str) : splitPath ('/' :: rest) = splitRest rest [] := by
  have hslash : "/".toList = ['/'] := rfl
  simp [splitPath, hslash, find_singleton_cons, splitLoop_some]

end UpnpOperation

open UpnpOperation in
/-- A path that `list` accepts is split into its components exactly when it has no run
of slashes of an even length. -/
theorem path_split_iff (path : Str) (haccepted : ¬ (path = [] ∨ path.head? ≠ some '/' ∨ path.getLast? = some '/')) :
    splitPath path = ((path.splitOn '/').filter (· ≠ []), true) ↔ ∀ k ∈ Fields.runs '/' path, Odd k := by
  push Not at haccepted
  obtain ⟨-, hhead, hlast⟩ := haccepted
  obtain ⟨rest, rfl⟩ := List.head?_eq_some_iff.1 hhead
  have hne : rest ≠ [] := by rintro rfl; exact hlast rfl
  have hlast' : rest.getLast? ≠ some '/' := by rwa [List.getLast?_cons_of_ne_nil hne] at hlast
  have hfields : (('/' :: rest).splitOn '/').filter (· ≠ []) = [] ++ Fields.fields '/' rest := Fields.fields_cons_sep rest
  have hruns : Fields.runs '/' ('/' :: rest) = Fields.runsFrom '/' 1 rest := by simp [Fields.runs, Fields.runsFrom]
  rw [splitPath_cons, hfields, hruns]
  exact splitRest_iff rest hne hlast' []

/-- Single slashes, and three in a row. -/
theorem odd_slashes_split :
    ¬ ("/a/b///c".toList = [] ∨ "/a/b///c".toList.head? ≠ some '/' ∨ "/a/b///c".toList.getLast? = some '/') ∧
      UpnpOperation.splitPath "/a/b///c".toList = (("/a/b///c".toList.splitOn '/').filter (· ≠ []), true) := by
  have haccepted :
      ¬ ("/a/b///c".toList = [] ∨ "/a/b///c".toList.head? ≠ some '/' ∨ "/a/b///c".toList.getLast? = some '/') := by decide
  exact ⟨haccepted, (path_split_iff "/a/b///c".toList haccepted).2 (by decide)⟩

open UpnpOperation in
/-- Two slashes cost the next component its first character, and a component of one
character makes the loop throw. -/
theorem double_slash_not_split :
    ("/a//bc".toList.splitOn '/').filter (· ≠ []) = ["a".toList, "bc".toList] ∧
      splitPath "/a//bc".toList = (["a".toList, "c".toList], true) ∧ splitPath "/a//b".toList = (["a".toList], false) := by
  have hcut (rest : Str) : splitPath ('/' :: 'a' :: '/' :: rest) = splitRest rest [['a']] := by
    rw [splitPath_cons]
    exact splitRest_word_append (w := ['a']) (by decide) (by decide) rest []
  refine ⟨by decide, (hcut "/bc".toList).trans ?_, (hcut "/b".toList).trans ?_⟩
  · exact (splitRest_slash_cons 'b' ['c'] _).trans (splitRest_word (by decide) (by decide) _)
  · exact (splitRest_slash_cons 'b' [] _).trans (splitRest_nil _)

end StorageAccess
