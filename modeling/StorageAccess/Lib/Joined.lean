import Mathlib.Data.List.Basic
/-!
# Fields joined by a separator

A key is often made by joining fields with a separator. `pieces` cuts every field
at the separators it holds itself. Two lists of fields are joined to one key
exactly when they have the same pieces, so a key tells lists apart unless one has
the pieces of the other, cut into fields elsewhere. The same is done with names and
values to make a list of options.
-/

namespace Joined

variable {α : Type*} {sep : α}

/-- The fields with the separator between them. -/
def join (sep : α) (fields : List (List α)) : List α := [sep].intercalate fields

@[simp]
theorem join_singleton (field : List α) : join sep [field] = field := List.intercalate_singleton

theorem join_cons {field : List α} {fields : List (List α)} (h : fields ≠ []) :
    join sep (field :: fields) = field ++ sep :: join sep fields := by
  rw [join, List.intercalate_cons_of_ne_nil h, List.append_assoc]
  rfl

/-- The characters of the fields, but for the separator, are those of the key. -/
theorem mem_join_iff {fields : List (List α)} {a : α} (ha : a ≠ sep) : a ∈ join sep fields ↔ ∃ f ∈ fields, a ∈ f := by
  induction fields with
  | nil => simp [join]
  | cons field fields ih =>
    by_cases hf : fields = []
    · simp [hf]
    · rw [join_cons hf, List.mem_append, List.mem_cons, ih]
      simp [ha]

variable [DecidableEq α]

/-- What is between two separators, of the fields' own or not. -/
def pieces (sep : α) (fields : List (List α)) : List (List α) := fields.flatMap (List.splitOn sep)

/-- The pieces of the fields are those of the key. -/
theorem splitOn_join {fields : List (List α)} (h : fields ≠ []) : (join sep fields).splitOn sep = pieces sep fields := by
  induction fields with
  | nil => exact absurd rfl h
  | cons field fields ih =>
    by_cases hf : fields = []
    · simp [hf, pieces]
    · rw [join_cons hf, List.splitOn_append_cons_self, ih hf]
      rfl

theorem splitOn_injective : Function.Injective (List.splitOn sep) := by
  intro s t h
  have hjoin (l : List α) : [sep].intercalate (l.splitOn sep) = l := List.intercalate_splitOn sep
  rw [← hjoin s, h, hjoin t]

theorem join_eq_iff {fs gs : List (List α)} (hf : fs ≠ []) (hg : gs ≠ []) :
    join sep fs = join sep gs ↔ pieces sep fs = pieces sep gs := by
  rw [← splitOn_join hf, ← splitOn_join hg, splitOn_injective.eq_iff]

/-- Lists of fields with the same pieces, cut alike, are one. -/
theorem eq_of_pieces {fs gs : List (List α)} (h : pieces sep fs = pieces sep gs)
    (hcut : fs.map (fun f => (f.splitOn sep).length) = gs.map (fun g => (g.splitOn sep).length)) : fs = gs := by
  induction fs generalizing gs with
  | nil => exact (List.map_eq_nil_iff.1 hcut.symm).symm
  | cons f fs ih =>
    obtain _ | ⟨g, gs⟩ := gs
    · simp at hcut
    simp only [List.map_cons, List.cons.injEq] at hcut
    simp only [pieces, List.flatMap_cons] at h
    obtain ⟨hhead, htail⟩ := List.append_inj h hcut.1
    rw [splitOn_injective hhead, ih htail hcut.2]

theorem length_splitOn_pos (sep : α) (field : List α) : 0 < (field.splitOn sep).length :=
  List.length_pos_iff.2 (List.splitOn_ne_nil _ _)

theorem splitOn_eq_singleton_iff {field : List α} : field.splitOn sep = [field] ↔ sep ∉ field := by
  refine ⟨fun h hm => ?_, List.splitOn_eq_singleton⟩
  obtain ⟨front, back, rfl⟩ := List.append_of_mem hm
  rw [List.splitOn_append_cons_self] at h
  have hlength := congrArg List.length h
  rw [List.length_append, List.length_singleton] at hlength
  have := length_splitOn_pos sep front
  have := length_splitOn_pos sep back
  omega

theorem length_le_pieces (sep : α) (fields : List (List α)) : fields.length ≤ (pieces sep fields).length := by
  induction fields with
  | nil => exact Nat.zero_le _
  | cons f fields ih =>
    have hf := length_splitOn_pos sep f
    simp only [pieces, List.flatMap_cons, List.length_append, List.length_cons] at ih ⊢
    omega

/-- Fields are their own pieces exactly when none holds the separator. -/
theorem pieces_eq_self_iff {fields : List (List α)} : pieces sep fields = fields ↔ ∀ f ∈ fields, sep ∉ f := by
  induction fields with
  | nil => simp [pieces]
  | cons f fields ih =>
    rw [List.forall_mem_cons, ← ih, ← splitOn_eq_singleton_iff, pieces, List.flatMap_cons]
    constructor
    · intro h
      have hlength := congrArg List.length h
      have hf := length_splitOn_pos sep f
      have hfields := length_le_pieces sep fields
      rw [List.length_append, List.length_cons] at hlength
      have hsplit : f.splitOn sep ++ fields.flatMap (List.splitOn sep) = [f] ++ fields := h
      refine List.append_inj hsplit ?_
      rw [List.length_singleton]
      simp only [pieces] at hfields
      omega
    · rintro ⟨hf, hfields⟩
      rw [hf]
      exact congrArg (f :: ·) hfields

/-! ## Lists of options -/

variable {eq : α}

/-- A name and a value, with a sign between them. -/
def encode (eq : α) (p : List α × List α) : List α := p.1 ++ eq :: p.2

/-- What stands before and after the first sign. -/
def option (eq : α) : List α → Option (List α × List α)
  | [] => none
  | a :: rest => if a = eq then some ([], rest) else (option eq rest).map fun p => (a :: p.1, p.2)

/-- The options of a list with separators. -/
def options (sep eq : α) (data : List α) : List (Option (List α × List α)) := (data.splitOn sep).map (option eq)

theorem option_encode {name : List α} (h : eq ∉ name) (value : List α) :
    option eq (encode eq (name, value)) = some (name, value) := by
  induction name with
  | nil => exact if_pos rfl
  | cons a name ih =>
    obtain ⟨ha, hname⟩ := not_or.1 (List.mem_cons.not.1 h)
    have hrest : option eq (name ++ eq :: value) = some (name, value) := ih hname
    rw [encode, List.cons_append, option, if_neg (Ne.symm ha), hrest]
    rfl

theorem encode_of_option {field : List α} {p : List α × List α} (h : option eq field = some p) : encode eq p = field := by
  induction field generalizing p with
  | nil => cases h
  | cons a rest ih =>
    rw [option] at h
    split at h
    case isTrue ha =>
      cases h
      exact congrArg (· :: rest) ha.symm
    case isFalse =>
      obtain ⟨q, hq, rfl⟩ := Option.map_eq_some_iff.1 h
      exact congrArg (a :: ·) (ih hq)

/-- The fields that have the options are made of them. -/
theorem eq_map_encode {fields : List (List α)} {ps : List (List α × List α)} (h : fields.map (option eq) = ps.map some) :
    fields = ps.map (encode eq) := by
  induction fields generalizing ps with
  | nil => rw [List.map_eq_nil_iff.1 (h.symm.trans List.map_nil)]; rfl
  | cons f fields ih =>
    obtain _ | ⟨p, ps⟩ := ps
    · cases h
    obtain ⟨hhead, htail⟩ := List.cons.inj h
    rw [List.map_cons, ← ih htail, encode_of_option hhead]

/-- A string has the options exactly when it is made of them and no value holds the separator. -/
theorem options_eq_iff {ps : List (List α × List α)} (hne : ps ≠ []) (hkeys : ∀ p ∈ ps, eq ∉ p.1 ∧ sep ∉ p.1)
    (hsep : sep ≠ eq) (data : List α) :
    options sep eq data = ps.map some ↔ data = join sep (ps.map (encode eq)) ∧ ∀ p ∈ ps, sep ∉ p.2 := by
  have hfields : ps.map (encode eq) ≠ [] := by simpa using hne
  have hplain : (∀ f ∈ ps.map (encode eq), sep ∉ f) ↔ ∀ p ∈ ps, sep ∉ p.2 := by
    rw [List.forall_mem_map]
    apply forall₂_congr
    intro p hp
    simp [encode, hsep, (hkeys p hp).2]
  constructor
  · intro h
    have hsplit : data.splitOn sep = ps.map (encode eq) := eq_map_encode h
    have hdata : data = join sep (ps.map (encode eq)) := by
      rw [← hsplit]
      exact (List.intercalate_splitOn sep).symm
    refine ⟨hdata, hplain.1 (pieces_eq_self_iff.1 ?_)⟩
    rw [← splitOn_join hfields, ← hdata, hsplit]
  · rintro ⟨rfl, hvalues⟩
    rw [options, splitOn_join hfields, pieces_eq_self_iff.2 (hplain.2 hvalues), List.map_map]
    exact List.map_congr_left fun p hp => option_encode (hkeys p hp).1 p.2

end Joined
