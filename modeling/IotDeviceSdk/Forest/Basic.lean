import Mathlib.Data.List.Basic
import Mathlib.Data.List.Infix

/-!
# Forests

A forest is what is below a node of a tree: the first child with the forest below it, and its later
siblings.  A node is named by its route, the names from the root down to it.

`routes` are the routes in preorder.  `routes_pairwise` says that no route in it stands before one
that it goes on from: each node is there once, and after all the nodes above it.
-/

namespace IotDeviceSdk

/-- The children of a node. -/
inductive Forest (ν : Type) where
  | nil
  | node (name : ν) (below next : Forest ν)

namespace Forest

variable {ν : Type}

/-- The names of the children. -/
def names : Forest ν → List ν
  | nil => []
  | node name _ next => name :: next.names

/-- How far down the nodes go. -/
def depth : Forest ν → ℕ
  | nil => 0
  | node _ below next => max (below.depth + 1) next.depth

/-- The routes below a route, in preorder. -/
def routes (route : List ν) : Forest ν → List (List ν)
  | nil => []
  | node name below next =>
    (route ++ [name]) :: (below.routes (route ++ [name]) ++ next.routes route)

/-- Siblings have different names. -/
def Distinct : Forest ν → Prop
  | nil => True
  | node name below next => name ∉ next.names ∧ below.Distinct ∧ next.Distinct

/-- A route goes on with the name of a child. -/
theorem of_mem_routes {forest : Forest ν} {route r : List ν} (h : r ∈ forest.routes route) :
    ∃ name ∈ forest.names, route ++ [name] <+: r := by
  induction forest generalizing route with
  | nil => simp [routes] at h
  | node name below next ihBelow ihNext =>
    rw [routes, List.mem_cons, List.mem_append] at h
    rcases h with rfl | h | h
    · exact ⟨name, List.mem_cons_self, List.prefix_refl _⟩
    · obtain ⟨_, -, hprefix⟩ := ihBelow h
      exact ⟨name, List.mem_cons_self, (List.prefix_append _ _).trans hprefix⟩
    · obtain ⟨name', hname', hprefix⟩ := ihNext h
      exact ⟨name', List.mem_cons_of_mem _ hname', hprefix⟩

theorem length_lt_of_mem_routes {forest : Forest ν} {route r : List ν}
    (h : r ∈ forest.routes route) : route.length < r.length := by
  obtain ⟨name, -, hprefix⟩ := of_mem_routes h
  have hlength := hprefix.length_le
  rw [List.length_append, List.length_singleton] at hlength
  exact hlength

/-- Routes through different children do not go on from each other. -/
theorem not_prefix_of_names {route r r' : List ν} {name name' : ν} (hne : name ≠ name')
    (hr : route ++ [name] <+: r) (hr' : route ++ [name'] <+: r') : ¬r' <+: r := by
  intro hprefix
  have hsame := List.prefix_of_prefix_length_le hr (hr'.trans hprefix) (by simp)
  have heq := hsame.eq_of_length (by simp)
  exact hne (List.singleton_injective (List.append_cancel_left heq))

/-- **No route** stands before one that it goes on from. -/
theorem routes_pairwise {forest : Forest ν} (h : forest.Distinct) (route : List ν) :
    (route :: forest.routes route).Pairwise fun r r' => ¬r' <+: r := by
  have hroot : ∀ r ∈ forest.routes route, ¬r <+: route := by
    intro r hr hprefix
    exact absurd hprefix.length_le (not_le.mpr (length_lt_of_mem_routes hr))
  refine List.pairwise_cons.mpr ⟨hroot, ?_⟩
  clear hroot
  induction forest generalizing route with
  | nil => exact List.Pairwise.nil
  | node name below next ihBelow ihNext =>
    obtain ⟨hname, hbelow, hnext⟩ := h
    -- what is below the first child, then what is below its siblings
    have hfirst : ∀ r ∈ (route ++ [name]) :: below.routes (route ++ [name]),
        route ++ [name] <+: r := by
      intro r hr
      rcases List.mem_cons.mp hr with rfl | hr
      · exact List.prefix_refl _
      · obtain ⟨_, -, hprefix⟩ := of_mem_routes hr
        exact (List.prefix_append _ _).trans hprefix
    rw [routes, ← List.cons_append, List.pairwise_append]
    refine ⟨List.pairwise_cons.mpr ⟨?_, ihBelow hbelow _⟩, ihNext hnext _, ?_⟩
    · intro r hr hprefix
      exact absurd hprefix.length_le (not_le.mpr (length_lt_of_mem_routes hr))
    · intro r hr r' hr'
      obtain ⟨name', hmem, hprefix'⟩ := of_mem_routes hr'
      have hne : name ≠ name' := by
        rintro rfl
        exact hname hmem
      exact not_prefix_of_names hne (hfirst r hr) hprefix'

end Forest

end IotDeviceSdk
