import Mathlib.Algebra.GroupWithZero.Nat
import Mosaic.Proofs.Enumerations

/-!
# Enumerations as lists

An enumeration takes the candidates of the ordered product of its stages (`Enumeration.product`) one after the
other: `Enumeration.left` is what remains of the product, and each step takes its head. So candidate `n` is
found in the stages at the digits of `n`, as many candidates are left as have not been counted, and the end comes
with the last one (`Catalog.enumeration_product`).
-/

namespace Mosaic

/-! ### Lists of one length put together -/

section

variable {α β : Type} {l : List α} {f : α → List β} {m i : Nat}

theorem length_flatMap_of_length (h : ∀ a ∈ l, (f a).length = m) : (l.flatMap f).length = l.length * m := by
  rw [List.length_flatMap, List.map_congr_left h, List.map_const', List.sum_replicate_nat]

theorem getElem?_flatMap_of_length (h : ∀ a ∈ l, (f a).length = m) :
    (l.flatMap f)[i]? = l[i / m]?.bind fun a => (f a)[i % m]? := by
  rcases Nat.eq_zero_or_pos m with rfl | hm
  · -- all of them are empty
    have hnil : ∀ a ∈ l, f a = [] := fun a ha => List.length_eq_zero_iff.mp (h a ha)
    rw [List.flatMap_eq_nil_iff.mpr hnil, List.getElem?_nil, eq_comm, Option.bind_eq_none_iff]
    intro a ha
    rw [hnil a (List.mem_of_getElem? ha), List.getElem?_nil]
  · induction l generalizing i with
    | nil => simp
    | cons a rest ih =>
      obtain ⟨ha, hrest⟩ := List.forall_mem_cons.mp h
      rw [List.flatMap_cons, List.getElem?_append, ha]
      split
      · rename_i hlt
        simp [Nat.div_eq_of_lt hlt, Nat.mod_eq_of_lt hlt]
      · obtain ⟨j, rfl⟩ : ∃ j, i = j + m := ⟨i - m, by omega⟩
        rw [ih hrest, Nat.add_div_right j hm, Nat.add_mod_right, Nat.add_sub_cancel]
        rfl

end

namespace Enumeration

variable {e rest : Enumeration} {c : Candidate} {n : Nat}

/-! ### The product of the stages -/

def product (e : Enumeration) : List Candidate :=
  e.preprocesses.toList.flatMap fun p => e.transforms.toList.flatMap fun t => e.queries.toList.map fun q => ⟨p, t, q⟩

theorem mem_product_iff :
    c ∈ e.product ↔ c.preprocess ∈ e.preprocesses ∧ c.transform ∈ e.transforms ∧ c.query ∈ e.queries := by
  obtain ⟨p, t, q⟩ := c
  simp only [product, List.mem_flatMap, List.mem_map, Array.mem_toList_iff, Candidate.mk.injEq]
  constructor
  · rintro ⟨_, hp, _, ht, _, hq, rfl, rfl, rfl⟩
    exact ⟨hp, ht, hq⟩
  · rintro ⟨hp, ht, hq⟩
    exact ⟨p, hp, t, ht, q, hq, rfl, rfl, rfl⟩

theorem length_transforms_queries (p : Preprocess) :
    (e.transforms.toList.flatMap fun t => e.queries.toList.map fun q => (⟨p, t, q⟩ : Candidate)).length =
      e.transforms.size * e.queries.size := by
  rw [length_flatMap_of_length fun t _ => List.length_map _]
  simp

theorem length_product : e.product.length = e.size := by
  rw [product, length_flatMap_of_length fun p _ => length_transforms_queries p, size, Nat.mul_assoc]
  simp

theorem getElem?_product : e.product[n]? = (do
    let preprocess ← e.preprocesses[n / (e.transforms.size * e.queries.size)]?
    let transform ← e.transforms[n / e.queries.size % e.transforms.size]?
    let query ← e.queries[n % e.queries.size]?
    return { preprocess, transform, query }) := by
  have hquery : ∀ p t, (e.queries.toList.map fun q => (⟨p, t, q⟩ : Candidate)).length = e.queries.size :=
    fun p t => List.length_map _
  rw [product, getElem?_flatMap_of_length fun p _ => length_transforms_queries p]
  simp only [getElem?_flatMap_of_length fun t _ => hquery _ t, Nat.mod_mul_left_div_self, Nat.mod_mul_left_mod,
    Array.getElem?_toList, List.getElem?_map, Option.map_eq_bind]
  rfl

/-! ### What remains of it -/

/-- The candidates not yet taken. -/
def left (e : Enumeration) : List Candidate := e.product.drop e.taken

theorem candidate?_eq_head? (h : e.WellPlaced) : e.candidate? = e.left.head? := by
  rw [left, List.head?_drop]
  by_cases hsize : 0 < e.size
  · obtain ⟨hp, ht, hq⟩ := digits_unique (h.transform hsize) (h.query hsize) (Eq.refl e.taken)
    rw [getElem?_product, ← hp, ← ht, ← hq]
    rfl
  · have hnone : ¬e.candidate?.isSome := by
      rw [isSome_candidate? h]
      omega
    rw [Option.not_isSome_iff_eq_none.mp hnone, List.getElem?_eq_none (by rw [length_product]; omega)]

theorem product_advance : e.advance.product = e.product := by
  obtain ⟨hp, ht, hq⟩ := stages_advance (e := e)
  rw [product, product, hp, ht, hq]

/-- A step takes the head of what is left. -/
theorem left_of_next? (h : e.WellPlaced) (hnext : e.next? = some (c, rest)) :
    rest.WellPlaced ∧ e.left = c :: rest.left := by
  obtain ⟨hd, rfl⟩ := eq_advance_of_next? hnext
  have hlt : e.taken < e.size := (isSome_candidate? h).mp (by rw [hd]; rfl)
  have htail : e.advance.left = e.left.tail := by
    rw [left, left, product_advance, taken_advance h (by omega), List.tail_drop]
  rw [candidate?_eq_head? h] at hd
  obtain ⟨tail, hleft⟩ := List.head?_eq_some_iff.mp hd
  refine ⟨h.advance hlt, ?_⟩
  rw [htail, hleft]
  rfl

theorem left_of_next?_none (h : e.WellPlaced) (hnext : e.next? = none) : e.left = [] := by
  rw [next?_eq h] at hnext
  rw [← List.head?_eq_none_iff, ← candidate?_eq_head? h]
  exact Option.map_eq_none_iff.mp hnext

theorem take_eq (h : e.WellPlaced) : e.take n = (e.left.take n, e.drop n) := by
  induction n generalizing e with
  | zero => rfl
  | succ n ih =>
    rw [take, drop]
    cases hnext : e.next? with
    | none => simp [left_of_next?_none h hnext]
    | some next =>
      obtain ⟨c, rest⟩ := next
      obtain ⟨hrest, hleft⟩ := left_of_next? h hnext
      simp [ih hrest, hleft]

theorem left_drop (h : e.WellPlaced) : (e.drop n).left = e.left.drop n := by
  induction n generalizing e with
  | zero => rfl
  | succ n ih =>
    rw [drop]
    cases hnext : e.next? with
    | none => simp [left_of_next?_none h hnext]
    | some next =>
      obtain ⟨c, rest⟩ := next
      obtain ⟨hrest, hleft⟩ := left_of_next? h hnext
      simp [ih hrest, hleft]

end Enumeration

namespace Catalog

variable {catalog : Catalog} {c : Candidate} {n : Nat}

/-! ### The candidates of a catalog -/

/-- All candidates of the catalog, in the order of its enumeration. -/
def candidates (catalog : Catalog) : List Candidate := (catalog.enumeration.take catalog.candidateCount).1

theorem left_enumeration : catalog.enumeration.left = catalog.enumeration.product := by
  rw [Enumeration.left, taken_enumeration, List.drop_zero]

theorem candidates_eq_product : catalog.candidates = catalog.enumeration.product := by
  rw [candidates, Enumeration.take_eq wellPlaced_enumeration, left_enumeration, List.take_of_length_le]
  exact Nat.le_of_eq Enumeration.length_product

theorem mem_candidates_iff : c ∈ catalog.candidates ↔ c.preprocess ∈ CatalogEntry.values catalog.preprocess ∧
    c.transform ∈ CatalogEntry.values catalog.transform ∧ c.query ∈ CatalogEntry.values catalog.query := by
  rw [candidates_eq_product, Enumeration.mem_product_iff]
  simp [enumeration]

theorem nth?_enumeration : catalog.enumeration.nth? n = catalog.candidates[n]? := by
  have hplaced : (catalog.enumeration.drop n).WellPlaced :=
    (Enumeration.drop_spec wellPlaced_enumeration taken_enumeration).1
  rw [Enumeration.nth?, Enumeration.candidate?_eq_head? hplaced, Enumeration.left_drop wellPlaced_enumeration,
    List.head?_drop, left_enumeration, candidates_eq_product]

end Catalog
end Mosaic
