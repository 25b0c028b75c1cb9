import Invalidation.Json.Reader
import Mathlib.Logic.Basic

/-! What is true of every JSON value that is read from a text: its whole numbers are below `2 ^ 64`, and
    no object in it has two members of one name. The reader keeps the members of an object sorted, each
    in front of the first one with a greater name, so that a name that comes again meets its member. -/

namespace Invalidation

namespace Json

/-- A value such as can be told apart in JSON: whole numbers below `2 ^ 64`, and no name twice in an
    object. -/
inductive Proper : Json → Prop
  | null : Proper .null
  | bool (b : Bool) : Proper (.bool b)
  | int {i : Int} (below : i < UInt64.size) : Proper (.int i)
  | real (x : Binary64) : Proper (.real x)
  | text (s : String) : Proper (.text s)
  | array {vs : List Json} (all : ∀ v ∈ vs, Proper v) : Proper (.array vs)
  | object {ms : List (String × Json)} (distinct : (ms.map Prod.fst).Nodup)
    (all : ∀ m ∈ ms, Proper m.2) :
      Proper (.object ms)

variable {ms : List (String × Json)} {vs : List Json} {v : Json} {name : String}

/-! ### Members -/

theorem mem_insertMember {m : String × Json} (h : m ∈ insertMember name v ms) :
    m = (name, v) ∨ m ∈ ms := by
  induction ms with
  | nil => exact Or.inl (List.mem_singleton.mp h)
  | cons n ms ih =>
    rw [insertMember] at h
    split at h
    · exact (List.mem_cons.mp h).imp_right (List.mem_cons_of_mem n)
    · split at h
      · exact List.mem_cons.mp h
      · rcases List.mem_cons.mp h with rfl | h
        · exact Or.inr List.mem_cons_self
        · exact (ih h).imp_right (List.mem_cons_of_mem n)

/-- Members stay sorted when one is put among them. -/
theorem pairwise_insertMember (h : ms.Pairwise fun m n => m.1 < n.1) :
    (insertMember name v ms).Pairwise fun m n => m.1 < n.1 := by
  induction ms with
  | nil => exact List.pairwise_singleton _ _
  | cons n ms ih =>
    obtain ⟨hn, hms⟩ := List.pairwise_cons.mp h
    rw [insertMember]
    split
    · next he =>
      subst he
      exact List.pairwise_cons.mpr ⟨hn, hms⟩
    · next hne =>
      split
      · next hlt =>
        refine List.pairwise_cons.mpr ⟨?_, h⟩
        exact List.forall_mem_cons.mpr ⟨hlt, fun m hm => String.lt_trans hlt (hn m hm)⟩
      · next hge =>
        refine List.pairwise_cons.mpr ⟨fun m hm => ?_, ih hms⟩
        rcases mem_insertMember hm with rfl | hm
        · exact String.not_le.mp fun hle => hne (String.le_antisymm hle (String.not_lt.mp hge))
        · exact hn m hm

/-- Members put one after the other among sorted ones make an object in which no name comes twice. -/
theorem proper_foldl_insertMember {acc : List (String × Json)}
    (sorted : acc.Pairwise fun m n => m.1 < n.1)
    (old : ∀ m ∈ acc, m.2.Proper) (new : ∀ m ∈ ms, m.2.Proper) :
    (object (ms.foldl (fun acc m => insertMember m.1 m.2 acc) acc)).Proper := by
  induction ms generalizing acc with
  | nil => exact .object (List.pairwise_map.mpr (sorted.imp fun hlt => String.ne_of_lt hlt)) old
  | cons m ms ih =>
    obtain ⟨hm, hms⟩ := List.forall_mem_cons.mp new
    refine ih (pairwise_insertMember sorted) (fun n hn => ?_) hms
    rcases mem_insertMember hn with rfl | hn
    · exact hm
    · exact old n hn

theorem proper_ofMembers (all : ∀ m ∈ ms, m.2.Proper) : (ofMembers ms).Proper :=
  proper_foldl_insertMember List.Pairwise.nil (fun _ hm => absurd hm List.not_mem_nil) all

theorem Proper.of_member? (proper : (Json.object ms).Proper)
    (h : (Json.object ms).member? name = some v) : v.Proper := by
  cases proper with
  | object distinct all =>
    obtain ⟨m, hm, rfl⟩ := Option.map_eq_some_iff.mp h
    exact all m (List.mem_of_find?_eq_some hm)

theorem Proper.of_getElem? {i : Nat} (proper : (Json.array vs).Proper) (h : vs[i]? = some v) :
    v.Proper := by
  cases proper with
  | array all => exact all v (List.mem_of_getElem? h)

/-! ### The reader -/

variable {cs rest : List Char}

/-- A number is kept as a whole one only if it fits. -/
theorem proper_of_fits {negative pointed scaled : Bool} {n : Nat} {x? : Option Binary64}
    {after : List Char}
    (h : (if (!pointed && !scaled && if negative = true then decide (0 < n) && decide (n ≤ Nat.pow 2 63)
        else decide (n < UInt64.size)) = true then some (int (if negative = true then -n else n), after)
      else x?.bind fun x => some (real x, after)) = some (v, rest)) : v.Proper := by
  rcases ite_eq_iff.mp h with ⟨hfits, ⟨⟩⟩ | ⟨-, h⟩
  · have hfit := (Bool.and_eq_true_iff.mp hfits).2
    refine .int ?_
    cases negative with
    | true =>
      have hsize : 0 < UInt64.size := by decide
      simp only [if_true]
      omega
    | false =>
      have hlt : n < UInt64.size := of_decide_eq_true hfit
      simp only [Bool.false_eq_true, if_false]
      omega
  · obtain ⟨x, -, ⟨⟩⟩ := Option.bind_eq_some_iff.mp h
    exact .real x

theorem proper_of_unsigned? {negative : Bool} (h : unsigned? negative cs = some (v, rest)) :
    v.Proper := by
  simp only [unsigned?, Option.bind_eq_bind, Option.bind_none, Option.bind_some, Option.pure_def,
    Option.ite_none_left_eq_some] at h
  obtain ⟨-, -, h⟩ := h
  split at h
  · split at h
    · exact proper_of_fits (Option.ite_none_left_eq_some.mp h).2
    · exact proper_of_fits h
  · exact proper_of_fits h

theorem proper_of_number? (h : number? cs = some (v, rest)) : v.Proper := by
  rw [number?.eq_def] at h
  split at h
  · exact proper_of_unsigned? h
  · exact proper_of_unsigned? h

variable {fuel : Nat}

/-- A value is proper if the elements and members in it are. -/
theorem proper_of_value?_succ
    (elements : ∀ cs vs rest, elements? fuel cs = some (vs, rest) → ∀ v ∈ vs, v.Proper)
    (members : ∀ cs ms rest, members? fuel cs = some (ms, rest) → ∀ m ∈ ms, m.2.Proper)
    (h : value? (fuel + 1) cs = some (v, rest)) : v.Proper := by
  rw [value?] at h
  split at h
  · obtain ⟨_, -, ⟨⟩⟩ := Option.bind_eq_some_iff.mp h
    exact .text _
  · split at h
    · cases h
      exact .array fun _ h => absurd h List.not_mem_nil
    · obtain ⟨_, hvs, ⟨⟩⟩ := Option.bind_eq_some_iff.mp h
      exact .array (elements _ _ _ hvs)
  · split at h
    · cases h
      exact .object List.nodup_nil fun _ h => absurd h List.not_mem_nil
    · obtain ⟨_, hms, ⟨⟩⟩ := Option.bind_eq_some_iff.mp h
      exact proper_ofMembers (members _ _ _ hms)
  · cases h
    exact .bool true
  · cases h
    exact .bool false
  · cases h
    exact .null
  · exact proper_of_number? h

theorem proper_of_elements?_succ (value : ∀ cs v rest, value? fuel cs = some (v, rest) → v.Proper)
    (elements : ∀ cs vs rest, elements? fuel cs = some (vs, rest) → ∀ v ∈ vs, v.Proper)
    (h : elements? (fuel + 1) cs = some (vs, rest)) : ∀ v ∈ vs, v.Proper := by
  rw [elements?] at h
  obtain ⟨⟨v, more⟩, hv, h⟩ := Option.bind_eq_some_iff.mp h
  have hv := value _ _ _ hv
  dsimp only at h
  split at h
  · cases h
    exact List.forall_mem_singleton.mpr hv
  · obtain ⟨_, hvs, ⟨⟩⟩ := Option.bind_eq_some_iff.mp h
    exact List.forall_mem_cons.mpr ⟨hv, elements _ _ _ hvs⟩
  · cases h

theorem proper_of_members?_succ (value : ∀ cs v rest, value? fuel cs = some (v, rest) → v.Proper)
    (members : ∀ cs ms rest, members? fuel cs = some (ms, rest) → ∀ m ∈ ms, m.2.Proper)
    (h : members? (fuel + 1) cs = some (ms, rest)) : ∀ m ∈ ms, m.2.Proper := by
  rw [members?] at h
  split at h
  · obtain ⟨⟨name, more⟩, -, h⟩ := Option.bind_eq_some_iff.mp h
    dsimp only at h
    split at h
    · obtain ⟨⟨v, more⟩, hv, h⟩ := Option.bind_eq_some_iff.mp h
      have hv := value _ _ _ hv
      dsimp only at h
      split at h
      · cases h
        exact List.forall_mem_singleton.mpr hv
      · obtain ⟨_, hms, ⟨⟩⟩ := Option.bind_eq_some_iff.mp h
        exact List.forall_mem_cons.mpr ⟨hv, members _ _ _ hms⟩
      · cases h
    · cases h
  · cases h

/-- All that is read with so much fuel is proper: values, the elements of arrays, the members of
    objects. -/
theorem proper_of_fuel (fuel : Nat) :
    (∀ cs v rest, value? fuel cs = some (v, rest) → v.Proper) ∧
      (∀ cs vs rest, elements? fuel cs = some (vs, rest) → ∀ v ∈ vs, v.Proper) ∧
      ∀ cs ms rest, members? fuel cs = some (ms, rest) → ∀ m ∈ ms, m.2.Proper := by
  induction fuel with
  | zero => simp [value?, elements?, members?]
  | succ fuel ih =>
    obtain ⟨hvalue, helements, hmembers⟩ := ih
    exact ⟨fun _ _ _ => proper_of_value?_succ helements hmembers,
      fun _ _ _ => proper_of_elements?_succ hvalue helements,
      fun _ _ _ => proper_of_members?_succ hvalue hmembers⟩

/-- A value that a text holds is proper. -/
theorem proper_of_parse? {text : String} (h : parse? text = some v) : v.Proper := by
  obtain ⟨⟨w, rest⟩, hw, h⟩ := Option.bind_eq_some_iff.mp h
  obtain ⟨-, ⟨⟩⟩ := Option.ite_none_right_eq_some.mp h
  exact (proper_of_fuel _).1 _ _ _ hw

end Json

end Invalidation
