import Mathlib.Data.List.Nodup
/-!
# Forests of named nodes

A node is stored with its children and its next siblings. A route is the names from a
root down to a node; the routes are listed with the node before its children, and
these before its next siblings. When the names of siblings differ, so do all routes.
-/

inductive Forest (N I : Type*)
  | nil
  | node (name : N) (id : I) (children next : Forest N I)

namespace Forest

variable {N I : Type*}

/-- The roots, as a listing gives them. -/
def roots : Forest N I → List (I × N)
  | nil => []
  | node name id _ next => (id, name) :: next.roots

/-- The routes to the nodes, with the nodes. -/
def routes : Forest N I → List (List N × I)
  | nil => []
  | node name id children next => ([name], id) :: (children.routes.map (fun r => (name :: r.1, r.2)) ++ next.routes)

def height : Forest N I → Nat
  | nil => 0
  | node _ _ children next => max (children.height + 1) next.height

/-- Every node is listed with its children. -/
def Listed (listing : I → List (I × N)) : Forest N I → Prop
  | nil => True
  | node _ id children next => listing id = children.roots ∧ children.Listed listing ∧ next.Listed listing

/-- The names of siblings differ. -/
def Distinct : Forest N I → Prop
  | nil => True
  | node name _ children next => (∀ r ∈ next.roots, r.2 ≠ name) ∧ children.Distinct ∧ next.Distinct

theorem mem_routes_node {name : N} {id : I} {children next : Forest N I} {r : List N × I} :
    r ∈ (node name id children next).routes ↔
      r = ([name], id) ∨ (∃ r' ∈ children.routes, r = (name :: r'.1, r'.2)) ∨ r ∈ next.routes := by
  simp only [routes, List.mem_cons, List.mem_append, List.mem_map, eq_comm]

/-- A route begins with the name of a root. -/
theorem exists_root {f : Forest N I} {r : List N × I} (h : r ∈ f.routes) :
    ∃ name rest, r.1 = name :: rest ∧ ∃ id, (id, name) ∈ f.roots := by
  induction f with
  | nil => cases h
  | node name id children next ihc ihn =>
    have hroot : (id, name) ∈ (node name id children next).roots := List.mem_cons_self
    rcases mem_routes_node.1 h with rfl | ⟨r', -, rfl⟩ | h
    · exact ⟨name, [], rfl, id, hroot⟩
    · exact ⟨name, r'.1, rfl, id, hroot⟩
    · obtain ⟨name', rest, hr, id', hid⟩ := ihn h
      exact ⟨name', rest, hr, id', List.mem_cons_of_mem _ hid⟩

theorem route_ne_nil {f : Forest N I} {r : List N × I} (h : r ∈ f.routes) : r.1 ≠ [] := by
  obtain ⟨name, rest, hr, -⟩ := exists_root h
  rw [hr]
  exact List.cons_ne_nil _ _

theorem nodup_routes {f : Forest N I} (h : f.Distinct) : (f.routes.map Prod.fst).Nodup := by
  induction f with
  | nil => exact List.nodup_nil
  | node name id children next ihc ihn =>
    obtain ⟨hname, hchildren, hnext⟩ := h
    -- what is below the node begins with its name, what is beside it does not
    have hbeside (r : List N × I) (hr : r ∈ next.routes) (rest : List N) : r.1 ≠ name :: rest := by
      intro heq
      obtain ⟨name', rest', hr', id', hid⟩ := exists_root hr
      obtain ⟨rfl, -⟩ := List.cons.inj (hr'.symm.trans heq)
      exact hname _ hid rfl
    have hbelow : children.routes.map (fun r => name :: r.1) = (children.routes.map Prod.fst).map (name :: ·) := by
      rw [List.map_map]
      rfl
    simp only [routes, List.map_cons, List.map_append, List.map_map, Function.comp_def]
    refine List.nodup_cons.2 ⟨?_, List.nodup_append.2 ⟨?_, ihn hnext, ?_⟩⟩
    · intro hm
      rcases List.mem_append.1 hm with hm | hm
      · obtain ⟨r, hr, heq⟩ := List.mem_map.1 hm
        exact route_ne_nil hr (List.cons.inj heq).2
      · obtain ⟨r, hr, heq⟩ := List.mem_map.1 hm
        exact hbeside r hr [] heq
    · rw [hbelow]
      exact (ihc hchildren).map (List.cons_injective)
    · intro t ht t' ht' heq
      obtain ⟨r, -, rfl⟩ := List.mem_map.1 ht
      obtain ⟨r', hr', rfl⟩ := List.mem_map.1 ht'
      exact hbeside r' hr' r.1 heq.symm

end Forest
