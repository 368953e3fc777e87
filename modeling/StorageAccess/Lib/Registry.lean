import Mathlib.Logic.Function.Basic
/-!
# Registries that keep the first entry of a key

A registry maps keys to entries. Noting an entry whose key is there already
changes nothing, so of several entries with one key the first stays.
-/

namespace Registry

variable {K V A : Type*} [DecidableEq K]

/-- Note an entry, unless its key is there. -/
def note (key : A → K) (value : A → V) (known : K → Option V) (a : A) : K → Option V :=
  if (known (key a)).isSome then known else Function.update known (key a) (some (value a))

variable {key : A → K} {value : A → V} {known : K → Option V}

theorem note_apply (a : A) (k : K) :
    note key value known a k = (known k).or (if key a = k then some (value a) else none) := by
  unfold note
  split
  case isTrue h =>
    by_cases hk : key a = k
    · subst hk
      obtain ⟨v, hv⟩ := Option.isSome_iff_exists.1 h
      rw [hv, Option.some_or]
    · rw [if_neg hk, Option.or_none]
  case isFalse h =>
    by_cases hk : key a = k
    · subst hk
      rw [Function.update_self, Option.not_isSome_iff_eq_none.1 h, if_pos rfl, Option.none_or]
    · rw [Function.update_of_ne (Ne.symm hk), if_neg hk, Option.or_none]

/-- After many entries a key has the entry it had, or else the first that was noted for it. -/
theorem notes_apply (as : List A) (k : K) :
    as.foldl (note key value) known k = (known k).or ((as.find? fun a => key a = k).map value) := by
  induction as generalizing known with
  | nil => simp
  | cons a as ih =>
    rw [List.foldl_cons, ih, note_apply, Option.or_assoc]
    by_cases hk : key a = k <;> simp [hk]

/-- Every noted entry is in the registry exactly when none of their keys had another
entry before, and entries with one key are equal. -/
theorem all_noted_iff (as : List A) :
    (∀ a ∈ as, as.foldl (note key value) known (key a) = some (value a)) ↔
      (∀ a ∈ as, ∀ v, known (key a) = some v → v = value a) ∧ ∀ a ∈ as, ∀ b ∈ as, key a = key b → value a = value b := by
  constructor
  · intro h
    refine ⟨fun a ha v hv => ?_, fun a ha b hb hk => ?_⟩
    · have hnoted := h a ha
      rw [notes_apply, hv, Option.some_or] at hnoted
      exact Option.some.inj hnoted
    · have hnoted := h a ha
      rw [hk, h b hb] at hnoted
      exact (Option.some.inj hnoted).symm
  · rintro ⟨hknown, hkeys⟩ a ha
    rw [notes_apply]
    cases hv : known (key a) with
    | some v => rw [Option.some_or, hknown a ha v hv]
    | none =>
      rw [Option.none_or]
      cases hfirst : as.find? fun b => key b = key a with
      | none => exact absurd (List.find?_eq_none.1 hfirst a ha) (by simp)
      | some b =>
        have hb : key b = key a := by simpa using List.find?_some hfirst
        rw [Option.map_some, hkeys b (List.mem_of_find?_eq_some hfirst) a ha hb]

end Registry
