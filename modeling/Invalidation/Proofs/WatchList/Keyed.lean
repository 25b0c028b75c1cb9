import Invalidation.Proofs.WatchList.Entries

/-! A list as a sequence of values under keys. Whatever is asked of it, with keys of any origin, it
    replies as a plain sequence does: appending goes behind all others under a key that was never
    handed out before, a live key takes out just its own pair, and any other key does nothing.

        cell i      generation 0 ──remove──▶ 1 ──remove──▶ 2 …      taken out of i so far: 0, 1, 2 …

    The sequence knows no cells. What makes its keys new is a count: the generation of a cell is the
    number of entries that were taken out of it, so below `2 ^ 32` of them no key comes twice. -/

namespace Invalidation

namespace WatchList

variable {α : Type}

/-- What can be asked of a list; a key may be live, stale, or one that was never handed out. -/
inductive Request (α : Type) where
  | push (value : α)
  | remove (key : Key)
  | contains (key : Key)
  | front
  | length

/-- What a list replies. -/
inductive Reply (α : Type) where
  | key (key : Key)
  | value (value : Option α)
  | truth (value : Bool)
  | number (value : Nat)
  deriving DecidableEq

/-- The list after a request, and its reply. -/
def serve (l : WatchList α) : Request α → WatchList α × Reply α
  | .push a => ((l.pushBack a).1, .key (l.pushBack a).2)
  | .remove k => ((l.remove k).1, .value (l.remove k).2)
  | .contains k => (l, .truth (l.contains k))
  | .front => (l, .value l.front?)
  | .length => (l, .number l.length)

/-- The list after several requests. -/
def after (l : WatchList α) (requests : List (Request α)) : WatchList α :=
  requests.foldl (fun l r => (l.serve r).1) l

/-- The replies to several requests. -/
def replies (l : WatchList α) : List (Request α) → List (Reply α)
  | [] => []
  | r :: rs => (l.serve r).2 :: (l.serve r).1.replies rs

/-- The key whose entry a request takes out. -/
def takes (l : WatchList α) : Request α → List Key
  | .remove k => if l.contains k then [k] else []
  | .push _ | .contains _ | .front | .length => []

/-- The keys whose entries several requests take out. -/
def taken (l : WatchList α) : List (Request α) → List Key
  | [] => []
  | r :: rs => l.takes r ++ (l.serve r).1.taken rs

/-- How many of the keys belong to cell `i`. -/
def times (i : Nat) (keys : List Key) : Nat := keys.countP fun k => k.index = i

/-! ### Sequences under keys -/

/-- A sequence of values under keys, with the past that it remembers. -/
structure Keyed (α : Type) where
  pairs : List (Key × α) := []
  /-- Every pair that was ever appended, in that order. -/
  pushed : List (Key × α) := []
  /-- The keys whose pairs were taken out. -/
  taken : List Key := []

/-- What a sequence may reply to a request, and what it is afterwards. -/
inductive Keyed.Serves : Keyed α → Request α → Reply α → Keyed α → Prop where
  | push {q : Keyed α} {k : Key} (a : α) (new : ∀ e ∈ q.pushed, e.1 ≠ k) :
      Serves q (.push a) (.key k) ⟨q.pairs ++ [(k, a)], q.pushed ++ [(k, a)], q.taken⟩
  | remove {pushed : List (Key × α)} {taken : List Key} (before : List (Key × α)) (k : Key) (a : α)
      (behind : List (Key × α)) :
      Serves ⟨before ++ (k, a) :: behind, pushed, taken⟩ (.remove k) (.value (some a))
        ⟨before ++ behind, pushed, taken ++ [k]⟩
  | stale {q : Keyed α} (k : Key) (gone : ∀ e ∈ q.pairs, e.1 ≠ k) :
      Serves q (.remove k) (.value none) q
  | contains {q : Keyed α} {b : Bool} (k : Key) (live : b = true ↔ ∃ e ∈ q.pairs, e.1 = k) :
      Serves q (.contains k) (.truth b) q
  | front (q : Keyed α) : Serves q .front (.value (q.pairs.head?.map Prod.snd)) q
  | length (q : Keyed α) : Serves q .length (.number q.pairs.length) q

/-- What a sequence may reply to several requests, and what it is afterwards. -/
inductive Keyed.ServesAll : Keyed α → List (Request α) → List (Reply α) → Keyed α → Prop where
  | nil (q : Keyed α) : ServesAll q [] [] q
  | cons {q q' q'' : Keyed α} {r : Request α} {rs : List (Request α)} {a : Reply α}
      {as : List (Reply α)} (one : Serves q r a q') (rest : ServesAll q' rs as q'') :
      ServesAll q (r :: rs) (a :: as) q''

/-- The requests that take the pairs out from the front, each after a look at its value. -/
def drain (pairs : List (Key × α)) : List (Request α) :=
  pairs.flatMap fun e => [.front, .remove e.1]

/-! ### Generations -/

theorem map_generation_setNext (cells : Array (Cell α)) (q n : Option Nat) (i : Nat) :
    (setNext cells q n)[i]?.map Cell.generation = cells[i]?.map Cell.generation := by
  rw [getElem?_setNext]
  split
  · cases cells[i]? <;> rfl
  · rfl

theorem map_generation_setPrevious (cells : Array (Cell α)) (q p : Option Nat) (i : Nat) :
    (setPrevious cells q p)[i]?.map Cell.generation = cells[i]?.map Cell.generation := by
  rw [getElem?_setPrevious]
  split
  · cases cells[i]? <;> rfl
  · rfl

/-- Appending leaves all generations as they are. -/
theorem generationOf_pushBack (l : WatchList α) (a : α) (i : Nat) :
    (l.pushBack a).1.generationOf i = l.generationOf i := by
  unfold generationOf
  rw [cells_pushBack, map_generation_setNext, occupy]
  cases l.free with
  | cons j rest =>
    simp only [Array.getElem?_modify]
    split
    · cases l.cells[i]? <;> rfl
    · rfl
  | nil =>
    simp only [Array.getElem?_push]
    split
    · next e => simp [e]
    · rfl

/-- Taking an entry out adds one to the generation of its cell. -/
theorem generationOf_remove {l : WatchList α} {k : Key} {a : α} (h : l.get? k = some a) (i : Nat) :
    (l.remove k).1.generationOf i = l.generationOf i + if i = k.index then 1 else 0 := by
  obtain ⟨c, hc, -, -⟩ := entryAt_eq_some.mp ((get?_eq_some_iff l k a).mp h)
  have hsame : ((setPrevious (setNext l.cells c.previous c.next) c.next c.previous)[i]?.map
      Cell.generation) = l.cells[i]?.map Cell.generation := by
    rw [map_generation_setPrevious, map_generation_setNext]
  unfold generationOf
  rw [remove_eq hc h, cellsWithout, Array.getElem?_modify, ← hsame]
  by_cases e : k.index = i
  · rw [if_pos e, if_pos e.symm]
    subst e
    rw [hc] at hsame
    obtain ⟨d, hd, -⟩ := Option.map_eq_some_iff.mp (hsame.trans rfl)
    rw [hd]
    rfl
  · rw [if_neg e, if_neg (Ne.symm e), UInt32.add_zero]

theorem size_pushBack_le (l : WatchList α) (a : α) : l.cells.size ≤ (l.pushBack a).1.cells.size := by
  rw [cells_pushBack, size_setNext, occupy]
  cases l.free <;> simp

theorem size_remove (l : WatchList α) (k : Key) : (l.remove k).1.cells.size = l.cells.size := by
  cases h : l.get? k with
  | none => rw [remove_of_get?_eq_none h]
  | some a =>
    obtain ⟨c, hc, -, -⟩ := entryAt_eq_some.mp ((get?_eq_some_iff l k a).mp h)
    simp [remove_eq hc h, cellsWithout]

theorem times_append (i : Nat) (ks js : List Key) : times i (ks ++ js) = times i ks + times i js :=
  List.countP_append

/-! ### One request -/

/-- A list holds the pairs of a sequence, and its generations count what was taken out. -/
structure Holds (l : WatchList α) (q : Keyed α) : Prop where
  sound : l.Sound
  pairs : l.entries = q.pairs
  counted : ∀ i, l.generationOf i = UInt32.ofNat (times i q.taken)
  /-- A key that was handed out is from before the last removal in its cell, or live. -/
  handed : ∀ e ∈ q.pushed, ∃ n, e.1.generation = UInt32.ofNat n ∧
    (n < times e.1.index q.taken ∨ n = times e.1.index q.taken ∧ e.1.index ∈ l.indices)
  placed : ∀ e ∈ q.pushed, e.1.index < l.cells.size

theorem holds_empty : Holds ({} : WatchList α) {} where
  sound := sound_empty
  pairs := by rw [chain_empty.entries]; rfl
  counted i := by simp [generationOf, times]
  handed e he := nomatch he
  placed e he := nomatch he

namespace Holds

variable {l : WatchList α} {q : Keyed α}

/-- The key of the next entry is none of those that were handed out. -/
theorem new_key (h : Holds l q) (few : ∀ i, times i q.taken < UInt32.size) (a : α) :
    ∀ e ∈ q.pushed, e.1 ≠ (l.pushBack a).2 := by
  intro e he same
  have hindex : e.1.index = (l.occupy a).2 := congrArg Key.index same
  have hout : e.1.index ∉ l.indices := hindex ▸ (h.sound.chain.occupy a).1
  obtain ⟨n, hn, hlt | ⟨-, hin⟩⟩ := h.handed e he
  · have hgeneration : UInt32.ofNat n = UInt32.ofNat (times e.1.index q.taken) := by
      rw [← hn, ← h.counted, hindex, same, key_pushBack]
    have hvalue := congrArg UInt32.toNat hgeneration
    rw [UInt32.toNat_ofNat_of_lt' (Nat.lt_trans hlt (few _)),
      UInt32.toNat_ofNat_of_lt' (few _)] at hvalue
    exact Nat.ne_of_lt hlt hvalue
  · exact hout hin

theorem pushBack (h : Holds l q) (a : α) :
    Holds (l.pushBack a).1 ⟨q.pairs ++ [((l.pushBack a).2, a)], q.pushed ++ [((l.pushBack a).2, a)],
      q.taken⟩ where
  sound := h.sound.pushBack a
  pairs := by rw [h.sound.entries_pushBack, h.pairs]
  counted i := by rw [generationOf_pushBack, h.counted]
  handed e he := by
    rw [(h.sound.chain.pushBack a).indices]
    rcases List.mem_append.mp he with he | he
    · obtain ⟨n, hn, hlt | ⟨heq, hin⟩⟩ := h.handed e he
      · exact ⟨n, hn, Or.inl hlt⟩
      · exact ⟨n, hn, Or.inr ⟨heq, List.mem_append_left _ hin⟩⟩
    · rw [List.mem_singleton.mp he, key_pushBack]
      exact ⟨_, h.counted _, Or.inr ⟨rfl, List.mem_append_right _ (List.mem_singleton_self _)⟩⟩
  placed e he := by
    rcases List.mem_append.mp he with he | he
    · exact Nat.lt_of_lt_of_le (h.placed e he) (size_pushBack_le l a)
    · rw [List.mem_singleton.mp he, key_pushBack]
      exact (h.sound.chain.pushBack a).lt_size (List.mem_append_right _ (List.mem_singleton_self _))

/-- Taking out the entry of a live key takes its pair out of the sequence. -/
theorem remove (h : Holds l q) {k : Key} {a : α} (hk : l.get? k = some a) :
    ∃ before behind, q.pairs = before ++ (k, a) :: behind ∧ (l.remove k).2 = some a ∧
      Holds (l.remove k).1 ⟨before ++ behind, q.pushed, q.taken ++ [k]⟩ := by
  obtain ⟨hsound, hvalue, before, behind, hentries, hleft⟩ := h.sound.remove_of_get? hk
  have htimes : ∀ i, times i (q.taken ++ [k]) = times i q.taken + if i = k.index then 1 else 0 := by
    intro i
    rw [times_append]
    congr 1
    simp [times, List.countP_cons, eq_comm]
  refine ⟨before, behind, h.pairs ▸ hentries, hvalue, hsound, hleft, fun i => ?_, fun e he => ?_,
    fun e he => ?_⟩
  · rw [generationOf_remove hk, h.counted, htimes, UInt32.ofNat_add]
    split <;> rfl
  · obtain ⟨n, hn, hlt | ⟨heq, hin⟩⟩ := h.handed e he
    · exact ⟨n, hn, Or.inl (Nat.lt_of_lt_of_le hlt (htimes _ ▸ Nat.le_add_right _ _))⟩
    · by_cases hi : e.1.index = k.index
      · -- the cell is free now, and its count has passed the key
        refine ⟨n, hn, Or.inl ?_⟩
        rw [htimes, if_pos hi, heq]
        exact Nat.lt_succ_self _
      · refine ⟨n, hn, Or.inr ⟨?_, ?_⟩⟩
        · rw [htimes, if_neg hi, heq, Nat.add_zero]
        · rw [← hsound.map_index_entries, hleft]
          rw [← h.sound.map_index_entries, hentries] at hin
          simp only [List.map_append, List.map_cons, List.mem_append, List.mem_cons] at hin ⊢
          exact hin.imp_right fun hin => hin.resolve_left hi
  · rw [size_remove]
    exact h.placed e he

/-- The keys of the pairs are the live ones. -/
theorem contains_iff (h : Holds l q) (k : Key) : l.contains k = true ↔ ∃ e ∈ q.pairs, e.1 = k := by
  rw [contains, Option.isSome_iff_exists, ← h.pairs]
  constructor
  · rintro ⟨a, ha⟩
    exact ⟨(k, a), (h.sound.mem_entries_iff k a).mpr ha, rfl⟩
  · rintro ⟨⟨j, a⟩, he, rfl⟩
    exact ⟨a, (h.sound.mem_entries_iff j a).mp he⟩

/-- A key that is not live takes nothing out, and the list stays the same in every cell. -/
theorem remove_stale (h : Holds l q) {k : Key} (gone : ∀ e ∈ q.pairs, e.1 ≠ k) :
    l.remove k = (l, none) := by
  cases hk : l.get? k with
  | none => exact remove_of_get?_eq_none hk
  | some a =>
    exact absurd rfl (gone (k, a) (h.pairs ▸ (h.sound.mem_entries_iff k a).mpr hk))

theorem front (h : Holds l q) : l.front? = q.pairs.head?.map Prod.snd := by
  rw [h.sound.front?_eq, toList, List.head?_map, h.pairs]

theorem length (h : Holds l q) : l.length = q.pairs.length := by
  rw [← h.sound.length_toList, toList, List.length_map, h.pairs]

/-- Whatever is asked, the list replies as the sequence may and goes on holding its pairs. -/
theorem serve (h : Holds l q) (r : Request α)
    (few : ∀ i, times i (q.taken ++ l.takes r) < UInt32.size) :
    ∃ q', q.Serves r (l.serve r).2 q' ∧ Holds (l.serve r).1 q' ∧ q'.taken = q.taken ++ l.takes r := by
  cases r with
  | push a =>
    rw [takes, List.append_nil] at few ⊢
    exact ⟨_, .push a (h.new_key few a), h.pushBack a, rfl⟩
  | remove k =>
    rw [takes]
    cases hk : l.get? k with
    | some a =>
      obtain ⟨before, behind, hpairs, hvalue, hnext⟩ := h.remove hk
      have hlive : l.contains k = true := by rw [WatchList.contains, hk]; rfl
      obtain ⟨pairs, pushed, taken⟩ := q
      obtain rfl : pairs = before ++ (k, a) :: behind := hpairs
      refine ⟨_, ?_, hnext, by rw [if_pos hlive]⟩
      rw [WatchList.serve, hvalue]
      exact .remove before k a behind
    | none =>
      have hdead : ¬ l.contains k = true := by rw [WatchList.contains, hk]; exact Bool.false_ne_true
      have gone : ∀ e ∈ q.pairs, e.1 ≠ k :=
        fun e he same => hdead ((h.contains_iff k).mpr ⟨e, he, same⟩)
      refine ⟨q, ?_, ?_, by rw [if_neg hdead, List.append_nil]⟩
      · rw [WatchList.serve, h.remove_stale gone]
        exact .stale k gone
      · rwa [WatchList.serve, h.remove_stale gone]
  | contains k => exact ⟨q, .contains k (h.contains_iff k), h, (List.append_nil _).symm⟩
  | front =>
    refine ⟨q, ?_, h, (List.append_nil _).symm⟩
    rw [WatchList.serve, h.front]
    exact .front q
  | length =>
    refine ⟨q, ?_, h, (List.append_nil _).symm⟩
    rw [WatchList.serve, h.length]
    exact .length q

end Holds

/-! ### Several requests -/

/-- Whatever is asked in turn, the list replies as the sequence may. -/
theorem Holds.servesAll {l : WatchList α} {q : Keyed α} (h : Holds l q) (rs : List (Request α))
    (few : ∀ i, times i (q.taken ++ l.taken rs) < UInt32.size) :
    ∃ q', q.ServesAll rs (l.replies rs) q' ∧ Holds (l.after rs) q' ∧
    q'.taken = q.taken ++ l.taken rs := by
  induction rs generalizing l q with
  | nil => exact ⟨q, .nil q, h, (List.append_nil _).symm⟩
  | cons r rs ih =>
    rw [taken, ← List.append_assoc] at few ⊢
    obtain ⟨q', hone, hheld, htaken⟩ := h.serve r fun i =>
      Nat.lt_of_le_of_lt (Nat.le_add_right _ _) (times_append i _ _ ▸ few i)
    rw [← htaken] at few ⊢
    obtain ⟨q'', hrest, hend, hall⟩ := ih hheld few
    exact ⟨q'', .cons hone hrest, hend, hall⟩

/-- Only pairs that were appended and not taken out are there, in the order in which they were
    appended. -/
structure Keyed.Remembers (q : Keyed α) : Prop where
  surviving : q.pairs = q.pushed.filter fun e => e.1 ∉ q.taken
  distinct : (q.pushed.map Prod.fst).Nodup
  known : ∀ k ∈ q.taken, ∃ e ∈ q.pushed, e.1 = k

theorem Keyed.Serves.remembers {q q' : Keyed α} {r : Request α} {a : Reply α} (h : q.Serves r a q')
    (past : q.Remembers) : q'.Remembers := by
  obtain ⟨surviving, distinct, known⟩ := past
  cases h with
  | @push _ k a new =>
    have hkey : k ∉ q.taken := fun hk => by
      obtain ⟨e, he, same⟩ := known k hk
      exact new e he same
    refine ⟨?_, ?_, fun j hj => ?_⟩
    · simp [surviving, List.filter_append, hkey]
    · rw [List.map_append, List.nodup_append]
      refine ⟨distinct, List.nodup_singleton _, fun j hj j' hj' same => ?_⟩
      obtain ⟨e, he, rfl⟩ := List.mem_map.mp hj
      exact new e he (same.trans (List.mem_singleton.mp hj'))
    · obtain ⟨e, he, same⟩ := known j hj
      exact ⟨e, List.mem_append_left _ he, same⟩
  | @remove pushed taken before k a behind =>
    replace surviving : before ++ (k, a) :: behind = pushed.filter fun e => e.1 ∉ taken := surviving
    have hin : (k, a) ∈ before ++ (k, a) :: behind := List.mem_append_right _ List.mem_cons_self
    rw [surviving] at hin
    have hkeys : ((before ++ (k, a) :: behind).map Prod.fst).Nodup :=
      surviving ▸ distinct.sublist (List.filter_sublist.map _)
    rw [List.map_append, List.map_cons, List.nodup_append, List.nodup_cons] at hkeys
    have hbefore : ∀ e ∈ before, e.1 ≠ k := fun e he same =>
      hkeys.2.2 e.1 (List.mem_map_of_mem he) k List.mem_cons_self same
    have hbehind : ∀ e ∈ behind, e.1 ≠ k := fun e he same =>
      hkeys.2.1.1 (List.mem_map.mpr ⟨e, he, same⟩)
    refine ⟨?_, distinct, fun j hj => ?_⟩
    · calc before ++ behind = (before ++ (k, a) :: behind).filter fun e => e.1 ≠ k := by
            rw [List.filter_append, List.filter_cons_of_neg (by simp),
              List.filter_eq_self.mpr fun e he => decide_eq_true (hbefore e he),
              List.filter_eq_self.mpr fun e he => decide_eq_true (hbehind e he)]
        _ = (pushed.filter fun e => e.1 ∉ taken).filter fun e => e.1 ≠ k := by rw [← surviving]
        _ = pushed.filter fun e => e.1 ∉ taken ++ [k] := by
            rw [List.filter_filter]
            exact List.filter_congr fun e _ => by simp [and_comm]
    · rcases List.mem_append.mp hj with hj | hj
      · exact known j hj
      · exact ⟨_, List.mem_of_mem_filter hin, (List.mem_singleton.mp hj).symm⟩
  | stale | contains | front | length => exact ⟨surviving, distinct, known⟩

theorem Keyed.ServesAll.remembers {q q' : Keyed α} {rs : List (Request α)} {as : List (Reply α)}
    (h : q.ServesAll rs as q') (past : q.Remembers) : q'.Remembers := by
  induction h with
  | nil => exact past
  | cons one _ ih => exact ih (one.remembers past)

/-- Taking out the pairs from the front gives their values in order and leaves nothing. -/
theorem Sound.drain {l : WatchList α} (h : l.Sound) (pairs : List (Key × α)) (he : l.entries = pairs) :
    l.replies (drain pairs) = pairs.flatMap (fun e => [.value (some e.2), .value (some e.2)]) ∧
      (l.after (drain pairs)).entries = [] := by
  induction pairs generalizing l with
  | nil => exact ⟨rfl, he⟩
  | cons e es ih =>
    obtain ⟨k, a⟩ := e
    have hk : l.get? k = some a := (h.mem_entries_iff k a).mp (he ▸ List.mem_cons_self)
    have hfront : l.front? = some a := by rw [h.front?_eq, toList, he]; rfl
    obtain ⟨hsound, hvalue, before, behind, hentries, hleft⟩ := h.remove_of_get? hk
    have hrest : (l.remove k).1.entries = es := by
      have hkeys := h.nodup_keys
      rw [he] at hentries hkeys
      cases before with
      | nil => rw [hleft, (List.cons.inj hentries).2]; rfl
      | cons e' before =>
        -- the first pair has the key already, and no key stands for two
        have hin : (k, a) ∈ es :=
          (List.cons.inj hentries).2 ▸ List.mem_append_right _ List.mem_cons_self
        rw [List.map_cons, List.nodup_cons] at hkeys
        exact absurd (List.mem_map_of_mem hin) hkeys.1
    obtain ⟨hreplies, hempty⟩ := ih hsound hrest
    constructor
    · simpa [WatchList.drain, replies, serve, hfront, hvalue] using hreplies
    · exact hempty

/-- After these requests the list that began empty and the sequence `q` are alike. -/
structure BehavesAs (rs : List (Request α)) (q : Keyed α) : Prop where
  replies : Keyed.ServesAll {} rs (({} : WatchList α).replies rs) q
  taken : q.taken = ({} : WatchList α).taken rs
  pairs : (({} : WatchList α).after rs).entries = q.pairs
  /-- The pairs that were appended and not taken out since, in the order in which they were appended. -/
  surviving : q.pairs = q.pushed.filter fun e => e.1 ∉ q.taken
  placed : ∀ e ∈ q.pushed, e.1.index < (({} : WatchList α).after rs).cells.size
  /-- A key that is not live leaves the list as it is in every cell. -/
  stale : ∀ k, (∀ e ∈ q.pairs, e.1 ≠ k) →
    (({} : WatchList α).after rs).remove k = (({} : WatchList α).after rs, none)
  drained : (({} : WatchList α).after rs).replies (drain q.pairs) =
    q.pairs.flatMap fun e => [.value (some e.2), .value (some e.2)]
  emptied : ((({} : WatchList α).after rs).after (drain q.pairs)).entries = []

/-- As long as no cell is emptied `2 ^ 32` times, a list behaves as a sequence of values under keys. -/
theorem behaves_as_sequence (rs : List (Request α))
    (few : ∀ i, times i (({} : WatchList α).taken rs) < UInt32.size) : ∃ q, BehavesAs rs q := by
  obtain ⟨q, hall, hheld, htaken⟩ := holds_empty.servesAll rs few
  have hpast : q.Remembers := hall.remembers ⟨rfl, List.nodup_nil, fun k hk => nomatch hk⟩
  obtain ⟨hdrained, hempty⟩ := hheld.sound.drain q.pairs hheld.pairs
  exact ⟨q, hall, htaken, hheld.pairs, hpast.surviving, hheld.placed,
    fun k gone => hheld.remove_stale gone, hdrained, hempty⟩

/-- Three values, one of them replaced in its cell, and then the stale key and one of no cell. -/
def replacedInItsCell : List (Request ℕ) :=
  [.push 10, .push 11, .push 12, .remove ⟨1, 0⟩, .push 13, .remove ⟨1, 0⟩, .remove ⟨9, 3⟩,
    .front, .length]

theorem behaves_as_sequence_replacedInItsCell :
    (∀ i, times i (({} : WatchList ℕ).taken replacedInItsCell) < UInt32.size) ∧
      ({} : WatchList ℕ).replies replacedInItsCell =
        [.key ⟨0, 0⟩, .key ⟨1, 0⟩, .key ⟨2, 0⟩, .value (some 11), .key ⟨1, 1⟩, .value none, .value none,
          .value (some 10), .number 3] ∧
      ∃ q, BehavesAs replacedInItsCell q ∧ q.pairs = [(⟨0, 0⟩, 10), (⟨2, 0⟩, 12), (⟨1, 1⟩, 13)] := by
  have few : ∀ i, times i (({} : WatchList ℕ).taken replacedInItsCell) < UInt32.size := fun i =>
    Nat.lt_of_le_of_lt List.countP_le_length (by decide)
  obtain ⟨q, hq⟩ := behaves_as_sequence replacedInItsCell few
  exact ⟨few, by decide, q, hq, hq.pairs.symm.trans (by decide)⟩

end WatchList

end Invalidation
