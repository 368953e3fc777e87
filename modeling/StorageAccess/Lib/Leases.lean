import Mathlib.Logic.Function.Basic
/-!
# Leases

A table of what is handed out: an id stands for a holder and a place, and for a key as
long as it is known under one. A lease is granted at a place that is free and under a key
that is not known, so that no two leases share either.
-/

structure Lease (Holder Place Key : Type*) where
  holder : Holder
  place : Place
  key : Option Key

/-- The leases there are, by their ids. -/
abbrev Leases (Id Holder Place Key : Type*) := Id → Option (Lease Holder Place Key)

namespace Leases

variable {Id Holder Place Key : Type*} {t : Leases Id Holder Place Key}

/-- Nothing is leased at the place. -/
def Free (t : Leases Id Holder Place Key) (place : Place) : Prop := ∀ id x, t id = some x → x.place ≠ place

/-- Something is known under the key. -/
def Known (t : Leases Id Holder Place Key) (key : Key) : Prop := ∃ id x, t id = some x ∧ x.key = some key

def HeldBy (t : Leases Id Holder Place Key) (id : Id) (holder : Holder) : Prop := ∃ x, t id = some x ∧ x.holder = holder

/-- No two leases share a place or a key. -/
structure Exclusive (t : Leases Id Holder Place Key) : Prop where
  places : ∀ id id' x x', t id = some x → t id' = some x' → x.place = x'.place → id = id'
  keys : ∀ id id' x x' key, t id = some x → t id' = some x' → x.key = some key → x'.key = some key → id = id'

theorem Exclusive.empty : Exclusive (fun _ => none : Leases Id Holder Place Key) where
  places := by
    intro _ _ _ _ h
    cases h
  keys := by
    intro _ _ _ _ _ h
    cases h

/-- Fewer leases, or leases under fewer keys, share no more. -/
theorem Exclusive.mono {t' : Leases Id Holder Place Key} (h : Exclusive t)
    (hsub : ∀ id x', t' id = some x' →
      ∃ x, t id = some x ∧ x.place = x'.place ∧ ∀ key, x'.key = some key → x.key = some key) :
    Exclusive t' where
  places id id' x x' hx hx' he := by
    obtain ⟨y, hy, hp, -⟩ := hsub id x hx
    obtain ⟨y', hy', hp', -⟩ := hsub id' x' hx'
    exact h.places id id' y y' hy hy' (by rw [hp, hp', he])
  keys id id' x x' key hx hx' hk hk' := by
    obtain ⟨y, hy, -, hkey⟩ := hsub id x hx
    obtain ⟨y', hy', -, hkey'⟩ := hsub id' x' hx'
    exact h.keys id id' y y' key hy hy' (hkey key hk) (hkey' key hk')

variable [DecidableEq Id]

def grant (t : Leases Id Holder Place Key) (id : Id) (x : Lease Holder Place Key) : Leases Id Holder Place Key :=
  Function.update t id (some x)

def release (t : Leases Id Holder Place Key) (id : Id) : Leases Id Holder Place Key := Function.update t id none

/-- The lease stays, but its key is not known any more. -/
def forget (t : Leases Id Holder Place Key) (id : Id) : Leases Id Holder Place Key :=
  Function.update t id ((t id).map fun x => { x with key := none })

theorem grant_apply (t : Leases Id Holder Place Key) (id id' : Id) (x : Lease Holder Place Key) :
    t.grant id x id' = if id' = id then some x else t id' := Function.update_apply ..

theorem release_apply (t : Leases Id Holder Place Key) (id id' : Id) :
    t.release id id' = if id' = id then none else t id' := Function.update_apply ..

theorem forget_apply (t : Leases Id Holder Place Key) (id id' : Id) :
    t.forget id id' = if id' = id then (t id).map fun x => { x with key := none } else t id' := Function.update_apply ..

theorem Exclusive.grant (h : Exclusive t) {id : Id} {x : Lease Holder Place Key} (hplace : t.Free x.place)
    (hkey : ∀ key, x.key = some key → ¬ t.Known key) : Exclusive (t.grant id x) := by
  have hcases {a : Id} {y : Lease Holder Place Key} (hy : t.grant id x a = some y) : a = id ∧ y = x ∨ t a = some y := by
    rw [grant_apply] at hy
    split at hy
    case isTrue ha => exact .inl ⟨ha, (Option.some.inj hy).symm⟩
    case isFalse => exact .inr hy
  constructor
  · intro a b y z hy hz he
    rcases hcases hy with ⟨ha, rfl⟩ | hold <;> rcases hcases hz with ⟨hb, rfl⟩ | hold'
    · rw [ha, hb]
    · exact absurd he.symm (hplace b z hold')
    · exact absurd he (hplace a y hold)
    · exact h.places a b y z hold hold' he
  · intro a b y z key hy hz hk hk'
    rcases hcases hy with ⟨ha, rfl⟩ | hold <;> rcases hcases hz with ⟨hb, rfl⟩ | hold'
    · rw [ha, hb]
    · exact absurd ⟨b, z, hold', hk'⟩ (hkey key hk)
    · exact absurd ⟨a, y, hold, hk⟩ (hkey key hk')
    · exact h.keys a b y z key hold hold' hk hk'

theorem Exclusive.release (h : Exclusive t) (id : Id) : Exclusive (t.release id) := by
  refine h.mono fun a y hy => ?_
  rw [release_apply] at hy
  split at hy
  · cases hy
  · exact ⟨y, hy, rfl, fun _ hk => hk⟩

theorem Exclusive.forget (h : Exclusive t) (id : Id) : Exclusive (t.forget id) := by
  refine h.mono fun a y hy => ?_
  rw [forget_apply] at hy
  split at hy
  case isTrue ha =>
    obtain ⟨x, hx, rfl⟩ := Option.map_eq_some_iff.1 hy
    exact ⟨x, ha ▸ hx, rfl, nofun⟩
  case isFalse => exact ⟨y, hy, rfl, fun _ hk => hk⟩

end Leases
