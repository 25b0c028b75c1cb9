import Invalidation.Proofs.WatchList.Sound

/-! A sound list is a sequence of entries, each a key and a value. Appending adds an entry behind, the
    key of an entry removes just that entry, and a key is live exactly as long as its entry is there,
    whatever cells and generations were used in between. -/

namespace Invalidation

namespace WatchList

variable {α : Type} {l : WatchList α}

theorem Sound.chain (h : l.Sound) : Chain l l.indices := by
  obtain ⟨is, hc⟩ := h
  rwa [hc.indices]

/-- A list holds exactly the entries whose keys are live. -/
theorem Sound.mem_entries_iff (h : l.Sound) (k : Key) (a : α) :
    (k, a) ∈ l.entries ↔ l.get? k = some a := by
  rw [h.chain.entries, List.mem_filterMap, get?_eq_some_iff]
  constructor
  · rintro ⟨i, -, hi⟩
    obtain ⟨c, -, -, rfl⟩ := entryAt_eq_some.mp hi
    exact hi
  · intro hk
    refine ⟨k.index, ?_, hk⟩
    rw [h.chain.occupied, hk]
    rfl

/-- Every cell of the chain holds an entry. -/
theorem Chain.entry {is : List Nat} (h : Chain l is) {i : Nat} (hi : i ∈ is) :
    ∃ c a, l.cells[i]? = some c ∧ c.value = some a ∧
      entryAt l.cells i = some (⟨i, c.generation⟩, a) := by
  obtain ⟨⟨k, a⟩, he⟩ := Option.isSome_iff_exists.mp ((h.occupied i).mp hi)
  obtain ⟨c, hc, ha, rfl⟩ := entryAt_eq_some.mp he
  exact ⟨c, a, hc, ha, he⟩

/-- The entries stand in the order of their cells. -/
theorem Sound.map_index_entries (h : l.Sound) : l.entries.map (fun e => e.1.index) = l.indices := by
  have hself : ∀ i ∈ l.indices, (entryAt l.cells i).map (fun e => e.1.index) = some i := by
    intro i hi
    obtain ⟨c, a, -, -, he⟩ := h.chain.entry hi
    rw [he]
    rfl
  rw [h.chain.entries, List.map_filterMap, List.filterMap_congr hself]
  exact List.filterMap_some

/-- No key stands for two entries. -/
theorem Sound.nodup_keys (h : l.Sound) : (l.entries.map Prod.fst).Nodup := by
  have hnd : (l.entries.map fun e => e.1.index).Nodup := h.map_index_entries ▸ h.chain.nodup
  exact List.Nodup.of_map Key.index (by rwa [List.map_map])

/-- The list is as long as the number of its entries. -/
theorem Sound.length_toList (h : l.Sound) : l.toList.length = l.length := by
  have hlen := congrArg List.length h.map_index_entries
  rw [List.length_map] at hlen
  rw [toList, List.length_map, hlen, h.chain.length]

/-- The value in front is that of the first entry. -/
theorem Sound.front?_eq (h : l.Sound) : l.front? = l.toList.head? := by
  rw [front?, toList, h.chain.entries, h.chain.head]
  cases hi : l.indices with
  | nil => rfl
  | cons i is =>
    obtain ⟨c, a, hc, ha, he⟩ := h.chain.entry (hi ▸ List.mem_cons_self)
    rw [List.filterMap_cons, he, List.head?_cons]
    simp [hc, ha]

/-! ### Appending -/

theorem Sound.pushBack (h : l.Sound) (a : α) : (l.pushBack a).1.Sound := ⟨_, h.chain.pushBack a⟩

/-- Appending adds one entry behind all others, under the key that it answers with. -/
theorem Sound.entries_pushBack (h : l.Sound) (a : α) :
    (l.pushBack a).1.entries = l.entries ++ [((l.pushBack a).2, a)] := by
  have hc := h.chain
  have hout := (hc.occupy a).1
  rw [(hc.pushBack a).entries, hc.entries, List.filterMap_append]
  congr 1
  · refine List.filterMap_congr fun i hi => ?_
    have hne : i ≠ (l.occupy a).2 := fun e => hout (e ▸ hi)
    rw [hc.entryAt_pushBack, if_neg hne]
  · simp [hc.entryAt_pushBack]

/-- The key of a new entry was not live before. -/
theorem Sound.get?_key_pushBack (h : l.Sound) (a : α) : l.get? (l.pushBack a).2 = none := by
  by_contra hne
  obtain ⟨b, hb⟩ := Option.ne_none_iff_exists'.mp hne
  have hb' := (get?_eq_some_iff l _ b).mp hb
  have hin : (l.pushBack a).2.index ∈ l.indices := by
    rw [h.chain.occupied, hb']
    rfl
  exact (h.chain.occupy a).1 hin

theorem Sound.get?_pushBack (h : l.Sound) (a : α) (j : Key) :
    (l.pushBack a).1.get? j = if j = (l.pushBack a).2 then some a else l.get? j := by
  have hin : ∀ b, (l.pushBack a).1.get? j = some b ↔
      l.get? j = some b ∨ (j = (l.pushBack a).2 ∧ b = a) := fun b => by
    rw [← (h.pushBack a).mem_entries_iff, h.entries_pushBack, List.mem_append, List.mem_singleton,
      h.mem_entries_iff, Prod.mk.injEq]
  split
  · next e => exact (hin a).mpr (Or.inr ⟨e, rfl⟩)
  · next e =>
    refine Option.ext fun b => ?_
    rw [hin b]
    exact ⟨fun hb => hb.resolve_right fun hb => e hb.1, Or.inl⟩

@[simp] theorem Sound.toList_pushBack (h : l.Sound) (a : α) :
    (l.pushBack a).1.toList = l.toList ++ [a] := by
  rw [toList, h.entries_pushBack, List.map_append]
  rfl

/-! ### Removing -/

/-- The key of an entry removes that entry and no other, and answers with its value. -/
theorem Sound.remove_of_get? (h : l.Sound) {k : Key} {a : α} (hk : l.get? k = some a) :
    (l.remove k).1.Sound ∧ (l.remove k).2 = some a ∧
      ∃ before behind, l.entries = before ++ (k, a) :: behind ∧
        (l.remove k).1.entries = before ++ behind := by
  have hat := (get?_eq_some_iff l k a).mp hk
  obtain ⟨c, hc, -, -⟩ := entryAt_eq_some.mp hat
  have hin : k.index ∈ l.indices := by
    rw [h.chain.occupied, hat]
    rfl
  obtain ⟨xs, ys, hxy⟩ := List.append_of_mem hin
  have hchain : Chain l (xs ++ k.index :: ys) := hxy ▸ h.chain
  have hgone := hchain.remove hk
  have hout : k.index ∉ xs ∧ k.index ∉ ys := by
    have hd := hchain.nodup
    rw [List.nodup_append, List.nodup_cons] at hd
    exact ⟨fun hm => hd.2.2 _ hm _ List.mem_cons_self rfl, hd.2.1.1⟩
  have hkeep : ∀ zs : List Nat, k.index ∉ zs →
      zs.filterMap (entryAt (l.remove k).1.cells) = zs.filterMap (entryAt l.cells) := by
    intro zs hz
    refine List.filterMap_congr fun i hi => ?_
    have hne : i ≠ k.index := fun e => hz (e ▸ hi)
    rw [remove_eq hc hk, entryAt_cellsWithout, if_neg hne]
  refine ⟨⟨_, hgone⟩, by rw [remove_eq hc hk], xs.filterMap (entryAt l.cells),
    ys.filterMap (entryAt l.cells), ?_, ?_⟩
  · rw [hchain.entries, List.filterMap_append, List.filterMap_cons, hat]
  · rw [hgone.entries, List.filterMap_append, hkeep xs hout.1, hkeep ys hout.2]

/-- Removing keeps a list sound, whatever the key. -/
theorem Sound.remove (h : l.Sound) (k : Key) : (l.remove k).1.Sound := by
  cases hk : l.get? k with
  | none => rwa [remove_of_get?_eq_none hk]
  | some a => exact (h.remove_of_get? hk).1

theorem Sound.get?_remove (h : l.Sound) (k j : Key) :
    (l.remove k).1.get? j = if j = k then none else l.get? j := by
  cases hk : l.get? k with
  | none =>
    rw [remove_of_get?_eq_none hk]
    split
    · next e => rw [e, hk]
    · rfl
  | some a =>
    obtain ⟨hs, -, before, behind, he, he'⟩ := h.remove_of_get? hk
    have hd := h.nodup_keys
    rw [he, List.map_append, List.map_cons, List.nodup_append, List.nodup_cons] at hd
    obtain ⟨-, ⟨hbehind, -⟩, hbefore⟩ := hd
    refine Option.ext fun b => ?_
    rw [← hs.mem_entries_iff, he']
    by_cases e : j = k
    · rw [if_pos e, e]
      refine ⟨fun hm => ?_, fun hm => by cases hm⟩
      rcases List.mem_append.mp hm with hm | hm
      · exact absurd rfl (hbefore k (List.mem_map_of_mem hm) k List.mem_cons_self)
      · exact absurd (List.mem_map_of_mem hm) hbehind
    · rw [if_neg e, ← h.mem_entries_iff, he, List.mem_append, List.mem_append, List.mem_cons]
      have hne : (j, b) ≠ (k, a) := fun hp => e (congrArg Prod.fst hp)
      simp [hne]

/-- In a list without repetitions the key of an entry erases its value. -/
theorem Sound.toList_remove [DecidableEq α] (h : l.Sound) (hd : l.toList.Nodup) {k : Key} {a : α}
    (hk : l.get? k = some a) : (l.remove k).1.toList = l.toList.erase a := by
  obtain ⟨-, -, before, behind, he, he'⟩ := h.remove_of_get? hk
  rw [toList, he, List.map_append, List.map_cons, List.nodup_append] at hd
  have hout : a ∉ before.map Prod.snd := fun hm => hd.2.2 a hm a List.mem_cons_self rfl
  rw [toList, toList, he, he', List.map_append, List.map_append, List.map_cons,
    List.erase_append_right _ hout, List.erase_cons_head]

end WatchList

end Invalidation
