import StorageAccess.Lib.Disk
/-!
# Resolving paths

`walk` follows a component list through a tree as the kernel does. `walk_append`
splits a walk in two, so that a path is resolved from the directory its first
part names; `Walks` says how a walk succeeds, and facts about lookups go by
induction on it.
-/

namespace Posix

/-- Why a lookup fails: nothing is there, or the path passes through too many links. -/
inductive Errno
  | noent
  | loop
  deriving DecidableEq, Repr

/-- What the last component may be: an entry as it stands, an entry with links
followed, or a place where an entry could be made. -/
inductive Last
  | keep
  | follow
  | make
  deriving DecidableEq, Repr

/-- How many links one lookup may pass through. -/
def maxLinks : Nat := 40

namespace FS

/-- One lookup up to its next link, which `jump` goes on from. -/
def walkFrom (fs : FS) (last : Last) (jump : Loc → List Name → Except Errno (Loc × Nat)) (left : Nat) :
    Loc → List Name → Except Errno (Loc × Nat)
  | cur, [] => .ok (cur, left)
  | cur, c :: rest =>
    if fs.get cur ≠ some .dir then .error .noent
    else if c = dot then walkFrom fs last jump left cur rest
    else if c = dotdot then walkFrom fs last jump left cur.dropLast rest
    else match fs.get (cur ++ [c]) with
      | none => if rest = [] ∧ last = .make ∧ IsName c then .ok (cur ++ [c], left) else .error .noent
      | some (.link t) =>
        if rest = [] ∧ last = .keep then .ok (cur ++ [c], left)
        else jump (if t.head? = some '/' then [] else cur) (components t ++ rest)
      | some _ => walkFrom fs last jump left (cur ++ [c]) rest

/-- Where a component list leads from a directory, with the links it may still
pass through, and how many of those remain. -/
def walk (fs : FS) (last : Last) : Nat → Loc → List Name → Except Errno (Loc × Nat)
  | 0 => walkFrom fs last (fun _ _ => .error .loop) 0
  | n + 1 => walkFrom fs last (walk fs last n) (n + 1)

/-- The location a path leads to from the root. -/
def locate (fs : FS) (last : Last) (p : List Name) : Except Errno Loc :=
  (fs.walk last maxLinks [] p).map (·.1)

/-- What a lookup finds. -/
inductive Lookup
  | found (l : Loc) (nd : Node)
  | absent
  | failed
  deriving DecidableEq, Repr

def look (fs : FS) (last : Last) (p : List Name) : Lookup :=
  match fs.locate last p with
  | .error .loop => .failed
  | .error .noent => .absent
  | .ok l =>
    match fs.get l with
    | some nd => .found l nd
    | none => .absent

/-- `fs::status`. -/
def status (fs : FS) (p : List Name) : Lookup := fs.look .follow p

/-- `fs::symlink_status`. -/
def symlinkStatus (fs : FS) (p : List Name) : Lookup := fs.look .keep p

/-- The error-code form of `fs::exists`. -/
def exists? (fs : FS) (p : List Name) : Bool :=
  match fs.status p with
  | .found .. => true
  | _ => false

/-- The error-code form of `fs::is_directory`. -/
def isDir (fs : FS) (p : List Name) : Bool :=
  match fs.status p with
  | .found _ .dir => true
  | _ => false

/-! ## Walks, component by component -/

theorem walk_nil (fs : FS) (last : Last) (n : Nat) (cur : Loc) : fs.walk last n cur [] = .ok (cur, n) := by
  cases n <;> rfl

theorem walk_cons (fs : FS) (last : Last) (n : Nat) (cur : Loc) (c : Name) (rest : List Name) :
    fs.walk last n cur (c :: rest) =
      if fs.get cur ≠ some .dir then .error .noent
      else if c = dot then fs.walk last n cur rest
      else if c = dotdot then fs.walk last n cur.dropLast rest
      else match fs.get (cur ++ [c]) with
        | none => if rest = [] ∧ last = .make ∧ IsName c then .ok (cur ++ [c], n) else .error .noent
        | some (.link t) =>
          if rest = [] ∧ last = .keep then .ok (cur ++ [c], n)
          else match n with
            | 0 => .error .loop
            | n + 1 => fs.walk last n (if t.head? = some '/' then [] else cur) (components t ++ rest)
        | some _ => fs.walk last n (cur ++ [c]) rest := by
  cases n <;> rfl

theorem walk_append (fs : FS) (last : Last) (a b : List Name) (hb : b ≠ []) (n : Nat) (cur : Loc) :
    fs.walk last n cur (a ++ b) = (fs.walk .follow n cur a).bind fun r => fs.walk last r.2 r.1 b := by
  induction n using Nat.strong_induction_on generalizing a cur with
  | _ n jump =>
  induction a generalizing cur with
  | nil => rw [List.nil_append, walk_nil, Except.bind]
  | cons c a ih =>
    rw [List.cons_append, walk_cons, walk_cons]
    split
    · rfl
    split
    · exact ih cur
    split
    · exact ih cur.dropLast
    cases fs.get (cur ++ [c]) with
    | none => simp [hb, Except.bind]
    | some nd =>
      cases nd with
      | link t =>
        -- what the link stands for comes before the rest of the first part
        have hpast : ¬ (a ++ b = [] ∧ last = .keep) := by simp [hb]
        have hfollow : ¬ (a = [] ∧ Last.follow = .keep) := by simp
        dsimp only
        rw [if_neg hpast, if_neg hfollow]
        cases n with
        | zero => rfl
        | succ n =>
          rw [← List.append_assoc]
          exact jump n (Nat.lt_succ_self n) _ _
      | file | dir => exact ih _

/-- One more name below a directory, when it is not a link. -/
theorem walk_name (fs : FS) (last : Last) (n : Nat) (cur : Loc) (c : Name) (hd : fs.get cur = some .dir)
    (hc : IsName c) :
    fs.walk last n cur [c] = match fs.get (cur ++ [c]) with
      | none => if last = .make then .ok (cur ++ [c], n) else .error .noent
      | some (.link t) =>
        if last = .keep then .ok (cur ++ [c], n)
        else match n with
          | 0 => .error .loop
          | n + 1 => fs.walk last n (if t.head? = some '/' then [] else cur) (components t)
      | some _ => .ok (cur ++ [c], n) := by
  rw [walk_cons, if_neg (not_not.2 hd), if_neg hc.2.1, if_neg hc.2.2.1]
  cases fs.get (cur ++ [c]) with
  | none => simp [hc]
  | some nd => cases nd <;> simp [walk_nil]

/-! ## Walks that succeed -/

/-- A walk that succeeds, one component after another. -/
inductive Walks (fs : FS) (last : Last) : Nat → Loc → List Name → Loc × Nat → Prop
  | done (n : Nat) (cur : Loc) : Walks fs last n cur [] (cur, n)
  | dot {n : Nat} {cur : Loc} {rest : List Name} {r : Loc × Nat} (dir : fs.get cur = some .dir)
      (next : Walks fs last n cur rest r) : Walks fs last n cur (dot :: rest) r
  | dotdot {n : Nat} {cur : Loc} {rest : List Name} {r : Loc × Nat} (dir : fs.get cur = some .dir)
      (next : Walks fs last n cur.dropLast rest r) : Walks fs last n cur (dotdot :: rest) r
  | enter {n : Nat} {cur : Loc} {c : Name} {rest : List Name} {r : Loc × Nat} {nd : Node}
      (dir : fs.get cur = some .dir) (name : c ≠ dot ∧ c ≠ dotdot) (entry : fs.get (cur ++ [c]) = some nd)
      (plain : ∀ t, nd ≠ .link t) (next : Walks fs last n (cur ++ [c]) rest r) : Walks fs last n cur (c :: rest) r
  | link {n : Nat} {cur : Loc} {c : Name} {rest : List Name} {r : Loc × Nat} {t : Str}
      (dir : fs.get cur = some .dir) (name : c ≠ dot ∧ c ≠ dotdot) (entry : fs.get (cur ++ [c]) = some (.link t))
      (through : ¬ (rest = [] ∧ last = .keep))
      (next : Walks fs last n (if t.head? = some '/' then [] else cur) (components t ++ rest) r) :
      Walks fs last (n + 1) cur (c :: rest) r
  | keep {n : Nat} {cur : Loc} {c : Name} {t : Str} (dir : fs.get cur = some .dir) (name : c ≠ dot ∧ c ≠ dotdot)
      (entry : fs.get (cur ++ [c]) = some (.link t)) (stops : last = .keep) : Walks fs last n cur [c] (cur ++ [c], n)
  | make {n : Nat} {cur : Loc} {c : Name} (dir : fs.get cur = some .dir) (name : IsName c)
      (free : fs.get (cur ++ [c]) = none) (makes : last = .make) : Walks fs last n cur [c] (cur ++ [c], n)

theorem walk_eq_ok_iff {fs : FS} {last : Last} {n : Nat} {cur : Loc} {p : List Name} {r : Loc × Nat} :
    fs.walk last n cur p = .ok r ↔ Walks fs last n cur p r := by
  constructor
  · -- on the links that are left, then on the components up to the next link
    induction n using Nat.strong_induction_on generalizing cur p with
    | _ n jump =>
    induction p generalizing cur with
    | nil =>
      rw [walk_nil]
      rintro ⟨⟩
      exact .done n cur
    | cons c rest ih =>
      intro h
      rw [walk_cons] at h
      split at h
      · cases h
      case isFalse hd =>
      have dir := not_not.1 hd
      split at h
      case isTrue hc => exact hc ▸ .dot dir (ih h)
      case isFalse hdot =>
      split at h
      case isTrue hc => exact hc ▸ .dotdot dir (ih h)
      case isFalse hdotdot =>
      cases hg : fs.get (cur ++ [c]) with
      | none =>
        rw [hg] at h
        dsimp only at h
        split at h
        case isTrue hlast =>
          obtain ⟨rfl, hmake, hname⟩ := hlast
          cases h
          exact .make dir hname hg hmake
        case isFalse => cases h
      | some nd =>
        rw [hg] at h
        cases nd with
        | link t =>
          dsimp only at h
          split at h
          case isTrue hlast =>
            obtain ⟨rfl, hkeep⟩ := hlast
            cases h
            exact .keep dir ⟨hdot, hdotdot⟩ hg hkeep
          case isFalse hthrough =>
            cases n with
            | zero => cases h
            | succ n => exact .link dir ⟨hdot, hdotdot⟩ hg hthrough (jump n (Nat.lt_succ_self n) h)
        | file | dir => exact .enter dir ⟨hdot, hdotdot⟩ hg (by simp) (ih h)
  · intro h
    induction h with
    | done n cur => exact walk_nil fs last n cur
    | dot dir next ih => rw [walk_cons, if_neg (not_not.2 dir), if_pos rfl, ih]
    | dotdot dir next ih =>
      rw [walk_cons, if_neg (not_not.2 dir), if_neg (by decide), if_pos rfl, ih]
    | @enter _ _ _ _ _ nd dir name entry plain next ih =>
      rw [walk_cons, if_neg (not_not.2 dir), if_neg name.1, if_neg name.2, entry]
      cases nd with
      | link t => exact absurd rfl (plain t)
      | file | dir => exact ih
    | link dir name entry through next ih =>
      rw [walk_cons, if_neg (not_not.2 dir), if_neg name.1, if_neg name.2, entry]
      exact (if_neg through).trans ih
    | keep dir name entry stops =>
      rw [walk_cons, if_neg (not_not.2 dir), if_neg name.1, if_neg name.2, entry]
      exact if_pos ⟨rfl, stops⟩
    | make dir name free makes =>
      rw [walk_cons, if_neg (not_not.2 dir), if_neg name.2.1, if_neg name.2.2.1, free]
      exact if_pos ⟨rfl, makes, name⟩

/-- Every lookup that succeeds, other than one that may make an entry, ends at an entry. -/
theorem get_of_walk (fs : FS) (last : Last) (hl : last ≠ .make) (n : Nat) (cur : Loc) (p : List Name)
    (hcur : fs.get cur ≠ none) {r : Loc × Nat} (h : fs.walk last n cur p = .ok r) :
    fs.get r.1 ≠ none := by
  replace h := walk_eq_ok_iff.1 h
  induction h with
  | done => exact hcur
  | dot _ _ ih => exact ih hcur
  | dotdot _ _ ih => exact ih (by simp [get_dropLast hcur])
  | enter _ _ entry _ _ ih => exact ih (by simp [entry])
  | link _ _ _ _ _ ih => exact ih (by split <;> simp [fs.root, hcur])
  | keep _ _ entry => simp [entry]
  | make _ _ _ makes => exact absurd makes hl

theorem look_found {fs : FS} {last : Last} {p : List Name} {l : Loc} {nd : Node} :
    fs.look last p = .found l nd ↔ fs.locate last p = .ok l ∧ fs.get l = some nd := by
  unfold look
  split
  · simp_all
  · simp_all
  case h_3 l' hl =>
    cases hg : fs.get l' with
    | none => simp only [hl, reduceCtorEq, false_iff]; rintro ⟨⟨⟩, h⟩; simp [hg] at h
    | some nd' =>
      simp only [hl, Lookup.found.injEq]
      constructor
      · rintro ⟨rfl, rfl⟩; exact ⟨rfl, hg⟩
      · rintro ⟨⟨⟩, h⟩; exact ⟨rfl, by simpa [hg] using h⟩

end FS

end Posix
