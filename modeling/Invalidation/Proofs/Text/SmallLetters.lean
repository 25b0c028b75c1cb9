import Invalidation.Text.Lowercase

/-! Small letters are written small once and for all, as far as ASCII goes: a text that reads as an
    ASCII word once it has been written small twice, reads as that word after the first time.

        Linking ──▶ linking ──▶ linking            nothing else comes to `linking` in two steps

    Two things could be in the way: a letter whose small form is a capital, and one whose small form is
    ASCII while it is none itself. No small form of the table is an ASCII capital; and the one letter
    beyond ASCII with a small form in ASCII, the Kelvin sign, is nobody's small form. -/

namespace Invalidation

namespace Text

/-- The character may come out where a text is written small: it is no ASCII capital, and not the Kelvin
    sign. -/
def MayComeOut (c : Char) : Prop := (c.toNat < 65 ∨ 90 < c.toNat) ∧ c.toNat ≠ 0x212A

instance : DecidablePred MayComeOut := fun _ => inferInstanceAs (Decidable (_ ∧ _))

theorem toNat_ofNat_of_valid {n : Nat} (h : n.isValidChar) : (Char.ofNat n).toNat = n := by
  rw [Char.ofNat, dif_pos h]
  rfl

/-! ### The letters of ASCII -/

theorem ascii_toLower {c : Char} (ascii : c.toNat < 128) :
    MayComeOut c.toLower ∧ (MayComeOut c → c.toLower = c) := by
  have table : ∀ n < 128, MayComeOut (Char.ofNat n).toLower ∧
      (MayComeOut (Char.ofNat n) → (Char.ofNat n).toLower = Char.ofNat n) := by decide
  simpa using table c.toNat ascii

/-! ### The letters of the table -/

/-- Where the small forms of a run of letters lie: beyond the ASCII capitals, with the Kelvin sign not
    among them, and beyond ASCII unless it is the run of the Kelvin sign; all are characters. -/
theorem shifted_bounds {r : CaseRun} (mem : r ∈ caseRuns) :
    90 < r.first + r.shift ∧ (r.last + r.shift < 0x212A ∨ 0x212A < r.first + r.shift) ∧
      (127 < r.first + r.shift ∨ r.first = 0x212A ∧ r.last = 0x212A) ∧
      (r.last + r.shift < 0xD800 ∨ 0xDFFF < r.first + r.shift ∧ r.last + r.shift < 0x110000) := by
  have table : (caseRuns.all fun r => 90 < r.first + r.shift &&
      ((r.last + r.shift < 0x212A || 0x212A < r.first + r.shift) &&
        ((127 < r.first + r.shift || (r.first = 0x212A && r.last = 0x212A)) &&
          (r.last + r.shift < 0xD800 ||
            (0xDFFF < r.first + r.shift && r.last + r.shift < 0x110000))))) = true := by decide
  simpa using List.all_eq_true.mp table r mem

theorem bounds_of_contains {r : CaseRun} {n : Nat} (h : r.contains n = true) :
    r.first ≤ n ∧ n ≤ r.last := by
  simp only [CaseRun.contains, Bool.and_eq_true, decide_eq_true_eq] at h
  exact h.1

theorem toNat_shifted {r : CaseRun} (mem : r ∈ caseRuns) {n : Nat} (h : r.contains n = true) :
    (Char.ofNat (n + r.shift).toNat).toNat = (n + r.shift).toNat := by
  obtain ⟨hbig, -, -, hvalid⟩ := shifted_bounds mem
  obtain ⟨hfirst, hlast⟩ := bounds_of_contains h
  refine toNat_ofNat_of_valid ?_
  rw [Nat.isValidChar]
  omega

/-! ### What comes out, and what stays as it is -/

variable {c d : Char} {cs before : List Char}

theorem lowerChar_of_ascii (h : c.toNat < 128) : lowerChar c = [c.toLower] := if_pos h

/-- The ways in which a character beyond ASCII is written small. -/
theorem lowerChar_cases (beyond : ¬ c.toNat < 128) : lowerChar c = ['i', Char.ofNat 0x307] ∨
    (∃ r ∈ caseRuns, r.contains c.toNat = true ∧ lowerChar c = [Char.ofNat (c.toNat + r.shift).toNat]) ∨
      lowerChar c = [c] ∧ c.toNat ≠ 0x212A := by
  unfold lowerChar
  rw [if_neg beyond]
  split
  · exact Or.inl rfl
  · split
    · next r hr =>
      exact Or.inr (Or.inl ⟨r, List.mem_of_find?_eq_some hr, by simpa using List.find?_some hr, rfl⟩)
    · next hr =>
      refine Or.inr (Or.inr ⟨rfl, fun kelvin => ?_⟩)
      have there : (caseRuns.find? (·.contains 0x212A)).isSome = true := by decide
      rw [← kelvin, hr] at there
      cases there

theorem mayComeOut_lowerChar (h : d ∈ lowerChar c) : MayComeOut d := by
  by_cases ascii : c.toNat < 128
  · rw [lowerChar_of_ascii ascii] at h
    obtain rfl := List.mem_singleton.mp h
    exact (ascii_toLower ascii).1
  · rcases lowerChar_cases ascii with he | ⟨r, mem, contains, he⟩ | ⟨he, hne⟩
    · rw [he] at h
      rcases List.mem_cons.mp h with rfl | h
      · decide
      · obtain rfl := List.mem_singleton.mp h
        decide
    · rw [he] at h
      obtain rfl := List.mem_singleton.mp h
      obtain ⟨hbig, hkelvin, -⟩ := shifted_bounds mem
      obtain ⟨hfirst, hlast⟩ := bounds_of_contains contains
      rw [MayComeOut, toNat_shifted mem contains]
      omega
    · rw [he] at h
      obtain rfl := List.mem_singleton.mp h
      exact ⟨Or.inr (by omega), hne⟩

theorem mayComeOut_lowerAfter (h : d ∈ lowerAfter before cs) : MayComeOut d := by
  induction cs generalizing before with
  | nil => cases h
  | cons c cs ih =>
    rw [lowerAfter] at h
    rcases List.mem_append.mp h with h | h
    · split at h
      · -- a sigma becomes one of its two small forms, depending on where it stands
        obtain rfl := List.mem_singleton.mp h
        split <;> decide
      · exact mayComeOut_lowerChar h
    · exact ih h

/-- What may come out and has a small form in ASCII, is its own small form. -/
theorem lowerChar_eq_self (out : MayComeOut c) (ascii : ∀ d ∈ lowerChar c, d.toNat < 128) :
    lowerChar c = [c] := by
  by_cases hc : c.toNat < 128
  · rw [lowerChar_of_ascii hc, (ascii_toLower hc).2 out]
  · rcases lowerChar_cases hc with he | ⟨r, mem, contains, he⟩ | ⟨he, -⟩
    · rw [he] at ascii
      exact absurd (ascii (Char.ofNat 0x307) (by simp)) (by decide)
    · rw [he] at ascii
      have hsmall := ascii _ (List.mem_singleton_self _)
      rw [toNat_shifted mem contains] at hsmall
      obtain ⟨-, -, hbig, -⟩ := shifted_bounds mem
      obtain ⟨hfirst, hlast⟩ := bounds_of_contains contains
      exact absurd out.2 (by omega)
    · exact he

theorem lowerAfter_eq_self (out : ∀ c ∈ cs, MayComeOut c)
    (ascii : ∀ d ∈ lowerAfter before cs, d.toNat < 128) : lowerAfter before cs = cs := by
  induction cs generalizing before with
  | nil => rfl
  | cons c cs ih =>
    rw [lowerAfter] at ascii ⊢
    obtain ⟨hc, hcs⟩ := List.forall_mem_cons.mp out
    rw [ih hcs fun d hd => ascii d (List.mem_append_right _ hd)]
    split
    · next sigma =>
      rw [if_pos sigma] at ascii
      have hsmall := ascii _ (List.mem_append_left _ (List.mem_singleton_self _))
      split at hsmall <;> exact absurd hsmall (by decide)
    · next sigma =>
      rw [if_neg sigma] at ascii
      rw [lowerChar_eq_self hc fun d hd => ascii d (List.mem_append_left _ hd), List.singleton_append]

/-- A text that reads as an ASCII word once it has been written small twice, reads as that word
    after the first time. -/
theorem lowercase_eq_of_twice {s word : String} (ascii : ∀ c ∈ word.toList, c.toNat < 128)
    (h : lowercase (lowercase s) = word) : lowercase s = word := by
  subst h
  have htwice : lowercase (lowercase s) = String.ofList (lowerAfter [] (lowercase s).toList) := rfl
  rw [htwice, String.toList_ofList] at ascii
  have hout : ∀ c ∈ (lowercase s).toList, MayComeOut c := fun c hc => by
    rw [lowercase, String.toList_ofList] at hc
    exact mayComeOut_lowerAfter hc
  rw [htwice, lowerAfter_eq_self hout ascii, String.ofList_toList]

end Text

end Invalidation
