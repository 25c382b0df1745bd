import Mosaic.Enumeration

/-!
# The course of an enumeration

An enumeration that starts at a catalog's first candidate stays well placed: as long as there are
candidates at all, its places for transforms and queries are in range; `Enumeration.taken`, the number of
candidates before the places, is the number of those given; and the enumeration is done just when these
are all. One step keeps this (`WellPlaced.advance`), so every number of steps does (`drop_spec`).
-/

namespace Mosaic
namespace Enumeration

variable {e rest : Enumeration} {c : Candidate} {n : Nat}

/-- The candidate that comes after `n` others, if there are so many. -/
def nth? (e : Enumeration) (n : Nat) : Option Candidate := (e.drop n).candidate?

/-- The places that come round again are in range, and the count and the end are in step with them. -/
structure WellPlaced (e : Enumeration) : Prop where
  transform : 0 < e.size → e.atTransform < e.transforms.size
  query : 0 < e.size → e.atQuery < e.queries.size
  taken_le : e.taken ≤ e.size
  emitted_eq : e.emitted = e.taken
  done_iff : e.done = true ↔ e.taken = e.size

theorem factors_pos (h : 0 < e.size) :
    0 < e.preprocesses.size ∧ 0 < e.transforms.size ∧ 0 < e.queries.size := by
  have h₁ := Nat.pos_of_mul_pos_right h
  exact ⟨Nat.pos_of_mul_pos_right h₁, Nat.pos_of_mul_pos_left h₁, Nat.pos_of_mul_pos_left h⟩

/-- While the other places are in range, not all candidates are taken as long as the first one is. -/
theorem taken_lt_iff (ht : e.atTransform < e.transforms.size) (hq : e.atQuery < e.queries.size) :
    e.taken < e.size ↔ e.atPreprocess < e.preprocesses.size := by
  simp only [taken, size]
  constructor
  · intro hlt
    have h₁ := Grid.row_of_index_lt hlt
    rw [Grid.index_div hq] at h₁
    have h₂ := Grid.row_of_index_lt h₁
    rwa [Grid.index_div ht] at h₂
  · intro hp
    exact Grid.index_lt (Grid.index_lt hp ht) hq

/-- A well placed enumeration has a candidate exactly as long as fewer than all are taken. -/
theorem isSome_candidate? (h : e.WellPlaced) : e.candidate?.isSome ↔ e.taken < e.size := by
  by_cases hsize : 0 < e.size
  · have ht := h.transform hsize
    have hq := h.query hsize
    rw [taken_lt_iff ht hq, candidate?, Array.getElem?_eq_getElem ht, Array.getElem?_eq_getElem hq]
    by_cases hp : e.atPreprocess < e.preprocesses.size
    · simp [hp]
    · simp [hp]
  · have hnone : e.candidate? = none := by
      have hzero : e.size = 0 := Nat.eq_zero_of_not_pos hsize
      rcases Nat.mul_eq_zero.mp hzero with h | h
      · rcases Nat.mul_eq_zero.mp h with h | h
        · simp [candidate?, Array.eq_empty_of_size_eq_zero h]
        · simp [candidate?, Array.eq_empty_of_size_eq_zero h]
      · simp [candidate?, Array.eq_empty_of_size_eq_zero h]
    simp [hnone]
    omega

theorem WellPlaced.done_eq_false (h : e.WellPlaced) (hlt : e.taken < e.size) : e.done = false :=
  Bool.eq_false_iff.mpr fun hdone => Nat.ne_of_lt hlt (h.done_iff.mp hdone)

/-- The count of what remains never goes below nothing: no more candidates are given than there are. -/
theorem remaining_eq (h : e.WellPlaced) : e.remaining = e.size - e.taken := by
  rw [remaining, h.emitted_eq]
  split
  · rename_i hdone
    rw [h.done_iff.mp hdone, Nat.sub_self]
  · rfl

/-- A well placed enumeration gives the candidate at its places, and is done when there is none. -/
theorem next?_eq (h : e.WellPlaced) : e.next? = e.candidate?.map fun c => (c, e.advance) := by
  rw [next?]
  split
  · rename_i hdone
    have hnone : e.candidate? = none := by
      rw [← Option.not_isSome_iff_eq_none, isSome_candidate? h, h.done_iff.mp hdone]
      exact Nat.lt_irrefl _
    rw [hnone, Option.map_none]
  · rfl

/-! ### One step -/

/-- To move on changes the places, the count and the end alone. -/
theorem stages_advance : e.advance.preprocesses = e.preprocesses ∧
    e.advance.transforms = e.transforms ∧ e.advance.queries = e.queries := by
  unfold advance carry
  split
  · exact ⟨rfl, rfl, rfl⟩
  · split <;> exact ⟨rfl, rfl, rfl⟩

@[simp] theorem size_advance : e.advance.size = e.size := by
  obtain ⟨hp, ht, hq⟩ := stages_advance (e := e)
  rw [size, size, hp, ht, hq]

theorem places_advance (ht : e.atTransform < e.transforms.size) (hq : e.atQuery < e.queries.size) :
    e.advance.atTransform < e.transforms.size ∧ e.advance.atQuery < e.queries.size := by
  unfold advance carry
  split
  · exact ⟨ht, by dsimp only; omega⟩
  · split
    · exact ⟨by dsimp only; omega, Nat.zero_lt_of_lt hq⟩
    · exact ⟨Nat.zero_lt_of_lt ht, Nat.zero_lt_of_lt hq⟩

theorem taken_advance (h : e.WellPlaced) (hsize : 0 < e.size) : e.advance.taken = e.taken + 1 := by
  have ht := h.transform hsize
  have hq := h.query hsize
  unfold advance carry
  split
  · rfl
  · rename_i hlast
    have hcarry : e.taken + 1 =
        (e.atPreprocess * e.transforms.size + (e.atTransform + 1)) * e.queries.size := by
      rw [taken, ← Nat.add_assoc, Nat.succ_mul]
      omega
    rw [hcarry]
    split
    · rfl
    · rename_i hlast
      have ht' : e.atTransform + 1 = e.transforms.size := by omega
      rw [ht', ← Nat.succ_mul]
      rfl

/-- The end is marked by the carry that moves the first place past its last operation. -/
theorem done_advance (hdone : e.done = false) (hp : e.atPreprocess < e.preprocesses.size) :
    e.advance.done = true ↔ ¬e.advance.atPreprocess < e.preprocesses.size := by
  unfold advance carry
  split
  · simp [hdone, hp]
  · split
    · simp [hdone, hp]
    · simp only [hdone, Bool.false_or, beq_iff_eq]
      omega

theorem WellPlaced.advance (h : e.WellPlaced) (hlt : e.taken < e.size) : e.advance.WellPlaced := by
  have hsize : 0 < e.size := Nat.zero_lt_of_lt hlt
  have ht := h.transform hsize
  have hq := h.query hsize
  obtain ⟨hstageP, hstageT, hstageQ⟩ := stages_advance (e := e)
  obtain ⟨ht', hq'⟩ := places_advance ht hq
  have htaken := taken_advance h hsize
  have hmore : e.advance.taken < e.size ↔ e.advance.atPreprocess < e.preprocesses.size := by
    rw [← size_advance, ← hstageP]
    exact taken_lt_iff (hstageT ▸ ht') (hstageQ ▸ hq')
  have hdone := done_advance (h.done_eq_false hlt) ((taken_lt_iff ht hq).mp hlt)
  refine ⟨fun _ => hstageT ▸ ht', fun _ => hstageQ ▸ hq', ?_, ?_, ?_⟩
  · rw [htaken, size_advance]
    exact hlt
  · rw [htaken, ← h.emitted_eq]
    rfl
  · rw [hdone, ← hmore, size_advance]
    omega

/-! ### Many steps -/

theorem next?_eq_some (h : e.WellPlaced) (hc : e.candidate? = some c) :
    e.next? = some (c, e.advance) := by
  rw [next?_eq h, hc]; rfl

theorem next?_eq_none (h : e.candidate? = none) : e.next? = none := by
  rw [next?, h]; exact ite_self _

theorem eq_advance_of_next? (h : e.next? = some (c, rest)) :
    e.candidate? = some c ∧ rest = e.advance := by
  obtain ⟨-, h⟩ := Option.ite_none_left_eq_some.mp h
  obtain ⟨d, hd, heq⟩ := Option.map_eq_some_iff.mp h
  cases heq
  exact ⟨hd, rfl⟩

theorem drop_of_none (h : e.next? = none) : e.drop n = e := by
  cases n with
  | zero => rfl
  | succ n => rw [drop, h]

/-- One more candidate is taken from behind as well as from before. -/
theorem drop_succ : e.drop (n + 1) = (e.drop n).drop 1 := by
  induction n generalizing e with
  | zero => rfl
  | succ n ih =>
    rw [drop.eq_2 e (n + 1), drop.eq_2 e n]
    cases h : e.next? with
    | none => exact (drop_of_none h).symm
    | some p => exact ih

theorem drop_succ_of_some (h : (e.drop n).next? = some (c, rest)) : e.drop (n + 1) = rest := by
  rw [drop_succ, drop.eq_2, h]; rfl

/-- At its end an enumeration stays. -/
theorem drop_add_of_none {m : Nat} (h : (e.drop n).next? = none) : e.drop (n + m) = e.drop n := by
  induction m with
  | zero => rfl
  | succ m ih => rw [← Nat.add_assoc, drop_succ, ih, drop_of_none h]

theorem size_drop : (e.drop n).size = e.size := by
  induction n generalizing e with
  | zero => rfl
  | succ n ih =>
    rw [drop_succ, drop.eq_2]
    cases h : (e.drop n).next? with
    | none => exact ih
    | some next =>
      obtain ⟨c, rest⟩ := next
      obtain ⟨-, rfl⟩ := eq_advance_of_next? h
      exact size_advance.trans ih

/-- What holds from the start on: the enumeration stays well placed, and `taken` counts the steps. -/
theorem drop_spec (h : e.WellPlaced) (htaken : e.taken = 0) :
    (e.drop n).WellPlaced ∧ (n ≤ e.size → (e.drop n).taken = n) := by
  induction n with
  | zero => exact ⟨h, fun _ => htaken⟩
  | succ n ih =>
    obtain ⟨hplaced, hcount⟩ := ih
    rw [drop_succ, drop.eq_2, next?_eq hplaced]
    cases hc : (e.drop n).candidate? with
    | none =>
      refine ⟨hplaced, fun hn => ?_⟩
      -- the enumeration is not at its end while fewer than all candidates are taken
      have := (isSome_candidate? hplaced).mpr (by rw [hcount (by omega), size_drop]; omega)
      simp [hc] at this
    | some c =>
      have hlt : (e.drop n).taken < (e.drop n).size := (isSome_candidate? hplaced).mp (by rw [hc]; rfl)
      refine ⟨hplaced.advance hlt, fun hn => ?_⟩
      show (e.drop n).advance.taken = n + 1
      rw [taken_advance hplaced (Nat.zero_lt_of_lt hlt), hcount (by omega)]

theorem isSome_nth? (h : e.WellPlaced) (htaken : e.taken = 0) : (e.nth? n).isSome ↔ n < e.size := by
  by_cases hn : n ≤ e.size
  · obtain ⟨hplaced, hcount⟩ := drop_spec (n := n) h htaken
    rw [nth?, isSome_candidate? hplaced, hcount hn, size_drop]
  · refine iff_of_false (fun hsome => ?_) (by omega)
    -- the enumeration has come to its end before
    obtain ⟨m, rfl⟩ : ∃ m, n = e.size + m := ⟨n - e.size, by omega⟩
    obtain ⟨hplaced, hcount⟩ := drop_spec (n := e.size) h htaken
    have hend : (e.drop e.size).candidate? = none := by
      rw [← Option.not_isSome_iff_eq_none, isSome_candidate? hplaced, hcount (Nat.le_refl _), size_drop]
      omega
    rw [nth?, drop_add_of_none (next?_eq_none hend), hend] at hsome
    cases hsome

/-! ### The places -/

theorem stages_drop : (e.drop n).preprocesses = e.preprocesses ∧
    (e.drop n).transforms = e.transforms ∧ (e.drop n).queries = e.queries := by
  induction n with
  | zero => exact ⟨rfl, rfl, rfl⟩
  | succ n ih =>
    rw [drop_succ, drop.eq_2]
    cases h : (e.drop n).next? with
    | none => exact ih
    | some next =>
      obtain ⟨c, rest⟩ := next
      obtain ⟨-, rfl⟩ := eq_advance_of_next? h
      obtain ⟨hp, ht, hq⟩ := stages_advance (e := e.drop n)
      exact ⟨hp.trans ih.1, ht.trans ih.2.1, hq.trans ih.2.2⟩

theorem digits_unique {T Q p t q : Nat} (ht : t < T) (hq : q < Q) (h : (p * T + t) * Q + q = n) :
    p = n / (T * Q) ∧ t = n / Q % T ∧ q = n % Q := by
  have hrest : n / Q = p * T + t := h ▸ Grid.index_div hq
  rw [Nat.mul_comm, ← Nat.div_div_eq_div_mul, hrest]
  exact ⟨(Grid.index_div ht).symm, (Grid.index_mod ht).symm, h ▸ (Grid.index_mod hq).symm⟩

/-- The places of candidate `n` are the digits of `n`. -/
theorem nth?_of_lt (h : e.WellPlaced) (htaken : e.taken = 0) (hn : n < e.size) : e.nth? n = (do
    let preprocess ← e.preprocesses[n / (e.transforms.size * e.queries.size)]?
    let transform ← e.transforms[n / e.queries.size % e.transforms.size]?
    let query ← e.queries[n % e.queries.size]?
    return { preprocess, transform, query }) := by
  obtain ⟨hplaced, hcount⟩ := drop_spec (n := n) h htaken
  obtain ⟨hp, ht, hq⟩ := stages_drop (e := e) (n := n)
  have hsize : 0 < (e.drop n).size := by rw [size_drop]; omega
  have hT := hplaced.transform hsize
  have hQ := hplaced.query hsize
  have htaken := hcount (Nat.le_of_lt hn)
  rw [taken, ht, hq] at htaken
  obtain ⟨hatP, hatT, hatQ⟩ := digits_unique (ht ▸ hT) (hq ▸ hQ) htaken
  rw [nth?, candidate?, hp, ht, hq, hatP, hatT, hatQ]

/-- A candidate that is listed is made of operations that are. -/
theorem mem_of_nth? (h : e.nth? n = some c) :
    c.preprocess ∈ e.preprocesses ∧ c.transform ∈ e.transforms ∧ c.query ∈ e.queries := by
  obtain ⟨hp, ht, hq⟩ := stages_drop (e := e) (n := n)
  rw [nth?, candidate?, hp, ht, hq] at h
  obtain ⟨preprocess, hpre, h⟩ := Option.bind_eq_some_iff.mp h
  obtain ⟨transform, htrans, h⟩ := Option.bind_eq_some_iff.mp h
  obtain ⟨query, hquery, h⟩ := Option.bind_eq_some_iff.mp h
  cases h
  exact ⟨Array.mem_of_getElem? hpre, Array.mem_of_getElem? htrans, Array.mem_of_getElem? hquery⟩

end Enumeration

namespace Catalog

variable {c : Catalog}

theorem taken_enumeration : c.enumeration.taken = 0 := by
  simp [Enumeration.taken, enumeration]

/-- An enumeration with an empty stage is done from the start, as there is nothing to give. -/
theorem wellPlaced_enumeration : c.enumeration.WellPlaced where
  transform h := (Enumeration.factors_pos h).2.1
  query h := (Enumeration.factors_pos h).2.2
  taken_le := by
    rw [taken_enumeration]
    exact Nat.zero_le _
  emitted_eq := by
    rw [taken_enumeration]
    rfl
  done_iff := by
    rw [taken_enumeration, eq_comm (a := 0)]
    simp only [enumeration, List.isEmpty_toArray, Bool.or_eq_true, List.isEmpty_iff, Enumeration.size,
      List.size_toArray, Nat.mul_eq_zero, List.length_eq_zero_iff]

theorem size_enumeration : c.enumeration.size = c.candidateCount := rfl

theorem remaining_enumeration : c.enumeration.remaining = c.candidateCount := by
  rw [Enumeration.remaining_eq wellPlaced_enumeration, taken_enumeration, size_enumeration, Nat.sub_zero]

end Catalog
end Mosaic
