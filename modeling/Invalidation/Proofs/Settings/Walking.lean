import Invalidation.Proofs.Settings.Laying

/-! A layer in the order in which a call walks it. The members are the same ones, with the members
    inside them in another order; so what can be said of a layer member by member can be said of it
    in every order, and with it what the layer does to a field. -/

namespace Invalidation

open Settings (Field)

namespace Order

variable {o : Order} {m : String × Tree} {ms layer : List (String × Tree)} {place : List String}

theorem members_eq_map (o : Order) (place : List String) (ms : List (String × Tree)) :
    o.members place ms = ms.map (o.member place) := by
  induction ms with
  | nil => rfl
  | cons m ms ih => rw [members, ih, List.map_cons]

theorem mem_walk_members : m ∈ o.walk place (o.members place ms) ↔ ∃ n ∈ ms, o.member place n = m := by
  rw [(o.perm place _).mem_iff, members_eq_map, List.mem_map]

theorem mem_layer : m ∈ o.layer layer ↔ ∃ n ∈ layer, o.entry n = m := by
  rw [Order.layer, (o.perm [] _).mem_iff, List.mem_map]

theorem layer_nil (o : Order) : o.layer [] = [] := (o.perm [] []).eq_nil

theorem forall_mem_layer {P : String × Tree → Prop} (h : ∀ m ∈ layer, P (o.entry m)) :
    ∀ m ∈ o.layer layer, P m := by
  intro m hm
  obtain ⟨n, hn, rfl⟩ := mem_layer.mp hm
  exact h n hn

@[simp] theorem member_fst (o : Order) (place : List String) (m : String × Tree) :
    (o.member place m).1 = m.1 := by cases m; rfl

@[simp] theorem entry_fst (o : Order) (m : String × Tree) : (o.entry m).1 = m.1 := by
  rw [entry]
  split
  · exact o.member_fst [] m
  · rfl

/-- A single value has no order. -/
theorem entry_scalar (o : Order) (k : String) (origin : Option String) (v : Scalar) :
    o.entry (k, .scalar origin v) = (k, .scalar origin v) := by
  rw [entry]
  split <;> rfl

theorem entry_of_plain (plain : (KeyPath.ofKey m.1).steps = []) : o.entry m = o.member [] m := by
  rw [entry, KeyPath.intoTable, plain]
  rfl

/-! ### As it is written -/

mutual

theorem written_tree (place : List String) : ∀ t : Tree, written.tree place t = t
  | .scalar _ _ => rfl
  | .array _ _ => rfl
  | .table origin ms => congrArg (Tree.table origin) (written_members place ms)

theorem written_members (place : List String) :
    ∀ ms : List (String × Tree), written.members place ms = ms
  | [] => rfl
  | m :: ms => congrArg₂ List.cons (written_member place m) (written_members place ms)

theorem written_member (place : List String) : ∀ m : String × Tree, written.member place m = m
  | (k, t) => congrArg (Prod.mk k) (written_tree (k :: place) t)

end

theorem written_layer (layer : List (String × Tree)) : written.layer layer = layer := by
  have same : written.entry = id := funext fun m => by
    rw [entry, written_member, ite_self, id]
  rw [Order.layer, same, List.map_id]
  rfl

end Order

/-! ### Every order does the same to a field -/

namespace Settings.Field

variable {o : Order} {f : Field} {m : String × Tree} {layer : List (String × Tree)} {y : Scalar}

theorem SparedBy.entry (h : f.SparedBy m) : f.SparedBy (o.entry m) := by
  rcases ne_or_eq (KeyPath.ofKey m.1).key f.part with elsewhere | here
  · exact Or.inl (by rwa [o.entry_fst])
  · refine Or.inr ?_
    rw [o.entry_fst]
    rcases h.inside here with ⟨plain, origin, ms, table, other⟩ | ⟨k, steps, hsteps, other⟩
    · rw [Order.entry_of_plain plain, plain, show m = (m.1, .table origin ms) from Prod.ext rfl table]
      intro n hn
      obtain ⟨n', hn', rfl⟩ := Order.mem_walk_members.mp hn
      rw [o.member_fst]
      exact other n' hn'
    · rwa [hsteps]

theorem SetBy.entry (h : f.SetBy y m) : f.SetBy y (o.entry m) := by
  rcases h with ⟨origin, ms, rfl, ⟨n, hn, name⟩, only⟩ | ⟨origin, value, place⟩
  · rw [Order.entry_of_plain (by rw [f.ofKey_part])]
    have there : ∃ n' ∈ o.walk [f.part] (o.members [f.part] ms), Text.lowercase n'.1 = f.name :=
      ⟨_, Order.mem_walk_members.mpr ⟨n, hn, rfl⟩, by rwa [o.member_fst]⟩
    refine Or.inl ⟨origin, _, rfl, there, fun n' hn' name' => ?_⟩
    obtain ⟨n, hn, rfl⟩ := Order.mem_walk_members.mp hn'
    rw [o.member_fst] at name'
    obtain ⟨origin', value⟩ := only n hn name'
    exact ⟨origin', by rw [show n = (n.1, .scalar origin' y) from Prod.ext rfl value]; rfl⟩
  · rw [show m = (m.1, .scalar origin y) from Prod.ext rfl value, o.entry_scalar]
    exact Or.inr ⟨origin, rfl, place⟩

theorem GivenBy.inOrder {y? : Option Scalar} (h : f.GivenBy layer y?) (o : Order) :
    f.GivenBy (o.layer layer) y? where
  each := Order.forall_mem_layer fun m hm =>
    (h.each m hm).imp SparedBy.entry fun ⟨y, hy, sets⟩ => ⟨y, hy, sets.entry⟩
  set := fun y hy => by
    obtain ⟨m, hm, sets⟩ := h.set y hy
    exact ⟨o.entry m, Order.mem_layer.mpr ⟨m, hm, rfl⟩, sets.entry⟩

end Settings.Field

/-- The keys alone tell whether a layer can be laid over every tree, and they are the same in every
    order. -/
theorem Tree.exists_addLayer_inOrder {layer : List (String × Tree)}
    (h : ∀ m ∈ layer, (KeyPath.ofKey m.1).steps = [] ∨ ∃ k, (KeyPath.ofKey m.1).steps = [.child k])
    (o : Order) (t : Tree) : ∃ t', Tree.addLayer (o.layer layer) t = .ok t' :=
  exists_addLayer (Order.forall_mem_layer fun m hm => by rw [o.entry_fst]; exact h m hm) t

end Invalidation
